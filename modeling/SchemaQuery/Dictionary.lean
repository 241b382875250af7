/-!
# Dictionaries

A dictionary holds its entries in the order of their names, each name once. Two dictionaries with the
same look-ups are therefore equal.
-/

namespace SchemaQuery

/-- Entries with strictly rising names. -/
structure Dictionary (α : Type) where
  entries : List (String × α)
  sorted : entries.Pairwise (fun a b => a.1 < b.1)

namespace Dictionary

variable {α β : Type}

/-- The dictionary without entries. -/
def empty : Dictionary α :=
  ⟨[], .nil⟩

instance : Inhabited (Dictionary α) := ⟨empty⟩

/-- Puts an entry into a list that is sorted by name. -/
def insertEntry (name : String) (value : α) : List (String × α) → List (String × α)
  | [] => [(name, value)]
  | (other, old) :: rest =>
    if name < other then (name, value) :: (other, old) :: rest
    else if name = other then (name, value) :: rest
    else (other, old) :: insertEntry name value rest

/-- Inserting brings in no other name. -/
theorem mem_insertEntry {name : String} {value : α} {entry : String × α} :
    {entries : List (String × α)} → entry ∈ insertEntry name value entries →
      entry = (name, value) ∨ entry ∈ entries
  | [], h => by simpa [insertEntry] using h
  | (other, old) :: rest, h => by
    unfold insertEntry at h
    split at h
    · simpa using h
    · split at h
      · rcases List.mem_cons.1 h with h | h
        · exact .inl h
        · exact .inr (List.mem_cons_of_mem _ h)
      · rcases List.mem_cons.1 h with h | h
        · exact .inr (h ▸ List.mem_cons_self)
        · exact (mem_insertEntry h).imp_right (List.mem_cons_of_mem _)

/-- Inserting keeps the names rising. -/
theorem sorted_insertEntry (name : String) (value : α) {entries : List (String × α)}
    (h : entries.Pairwise (fun a b => a.1 < b.1)) :
    (insertEntry name value entries).Pairwise (fun a b => a.1 < b.1) := by
  induction entries with
  | nil => simp [insertEntry]
  | cons head rest ih =>
    obtain ⟨other, old⟩ := head
    obtain ⟨hhead, hrest⟩ := List.pairwise_cons.1 h
    unfold insertEntry
    split
    · next hlt =>
      refine List.pairwise_cons.2 ⟨fun entry hmem => ?_, h⟩
      rcases List.mem_cons.1 hmem with rfl | hmem
      · exact hlt
      · exact String.lt_trans hlt (hhead entry hmem)
    · next hlt =>
      split
      · next heq => exact List.pairwise_cons.2 ⟨fun entry hmem => heq ▸ hhead entry hmem, hrest⟩
      · next hne =>
        refine List.pairwise_cons.2 ⟨fun entry hmem => ?_, ih hrest⟩
        rcases mem_insertEntry hmem with rfl | hmem
        · rcases String.le_total other name with hle | hle
          · exact Decidable.byContradiction fun hnot =>
              hne (String.le_antisymm (Std.not_lt.1 hnot) hle)
          · exact absurd (String.le_antisymm hle (Std.not_lt.1 hlt)) hne
        · exact hhead entry hmem

/-- Gives a name a value, in place of the one it had. -/
def insert (d : Dictionary α) (name : String) (value : α) : Dictionary α :=
  ⟨insertEntry name value d.entries, sorted_insertEntry name value d.sorted⟩

/-- The entries inserted one by one: of a repeated name the last value stays. -/
def ofList (entries : List (String × α)) : Dictionary α :=
  entries.foldl (fun d entry => d.insert entry.1 entry.2) empty

/-- The value of a name. -/
def get? (d : Dictionary α) (name : String) : Option α :=
  (d.entries.find? (fun entry => entry.1 = name)).map Prod.snd

/-- Whether the name has a value. -/
def contains (d : Dictionary α) (name : String) : Bool :=
  (d.get? name).isSome

/-- The names, rising. -/
def names (d : Dictionary α) : List String :=
  d.entries.map Prod.fst

/-- The values in the order of their names. -/
def values (d : Dictionary α) : List α :=
  d.entries.map Prod.snd

/-- The number of entries. -/
def size (d : Dictionary α) : Nat :=
  d.entries.length

/-- Whether there is no entry. -/
def isEmpty (d : Dictionary α) : Bool :=
  d.entries.isEmpty

/-- Changes every value, knowing its name. -/
def map (d : Dictionary α) (f : String → α → β) : Dictionary β :=
  ⟨d.entries.map (fun entry => (entry.1, f entry.1 entry.2)), by
    simpa [List.pairwise_map] using d.sorted⟩

end Dictionary

end SchemaQuery
