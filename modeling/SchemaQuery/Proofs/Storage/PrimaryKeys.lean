import SchemaQuery.Proofs.Json.Equality
import SchemaQuery.Proofs.Storage.Steps

/-!
# Primary keys

The invariant of a table: its rows are led by their primary keys, numbers of 64 bits that differ from row to
row, and none of them is above the counter. The counter only rises until the store is emptied, so it is never
behind a key that a row has had since, and the next key that it gives is new, also among the dropped rows.
-/

namespace SchemaQuery

/-! ## Numbers as keys -/

namespace Json

/-- A count of 64 bits is an integer. -/
theorem ofNat_eq_int {n : Nat} (h : n ≤ Whole.greatest) :
    ofNat n = .int ⟨n, by unfold Whole.least; omega, by omega⟩ := by
  unfold ofNat ofInt
  rw [dif_pos]
  exact ⟨by unfold Whole.least; omega, by omega⟩

/-- A count of 64 bits differs as a value from every other count. -/
theorem ofNat_inj {m n : Nat} (hm : m ≤ Whole.greatest) : ofNat m = ofNat n ↔ m = n := by
  by_cases hn : n ≤ Whole.greatest
  · rw [ofNat_eq_int hm, ofNat_eq_int hn]
    simp only [int.injEq, Whole.mk.injEq]
    omega
  · have hfloat : ofNat n = .float (Binary64.ofInt n) := by
      unfold ofNat ofInt
      rw [dif_neg]
      omega
    rw [ofNat_eq_int hm, hfloat]
    constructor
    · intro heq
      cases heq
    · intro heq
      exact absurd (heq ▸ hm) hn

/-- No count is null. -/
theorem ofNat_ne_null (n : Nat) : ofNat n ≠ .null := by
  unfold ofNat ofInt
  split <;> simp

/-- A count is a number, rounded as a float. -/
theorem asNumber?_ofNat (n : Nat) : (ofNat n).asNumber? = some (Binary64.ofInt n) := by
  unfold ofNat ofInt
  split <;> rfl

/-- The count of a value is of 64 bits, and the value is its count. -/
theorem asNat?_eq_some_iff {value : Json} {n : Nat} :
    value.asNat? = some n ↔ n ≤ Whole.greatest ∧ value = ofNat n := by
  constructor
  · intro h
    cases value with
    | int whole =>
      obtain ⟨val, hlower, hupper⟩ := whole
      simp only [asNat?, Option.ite_none_right_eq_some, Option.some.injEq] at h
      obtain ⟨hval, rfl⟩ := h
      have hle : val.toNat ≤ Whole.greatest := by omega
      refine ⟨hle, ?_⟩
      simp only [ofNat_eq_int hle, int.injEq, Whole.mk.injEq]
      omega
    | _ => cases h
  · rintro ⟨hle, rfl⟩
    simp [ofNat_eq_int hle, asNat?]

/-- Only a count itself is the same as the count. -/
theorem same_ofNat_iff {value : Json} {n : Nat} (h : n ≤ Whole.greatest) :
    value.same (ofNat n) = true ↔ value = ofNat n := by
  rw [ofNat_eq_int h]
  cases value with
  | int whole =>
    obtain ⟨val, hlower, hupper⟩ := whole
    simp [same]
  | _ => simp [same]

end Json

/-- A row led by a value of a name has that value. -/
theorem Members.getD_of_head? {row : Row} {name : String} {value : Json}
    (h : row.head? = some (name, value)) : row.getD name = value := by
  obtain ⟨rest, rfl⟩ := List.head?_eq_some_iff.mp h
  simp [Members.getD, Members.get?]

namespace Table

variable {t after : Table} {row : Row} {id : Nat}

/-- The primary keys of the rows, in order. -/
def keys (t : Table) : List Json :=
  t.rows.map (Members.getD · primaryKey)

/-- Whether a row is led by a number as its primary key. -/
def HasKey (t : Table) (id : Nat) : Prop :=
  ∃ row ∈ t.rows, row.head? = some (primaryKey, .ofNat id)

/-- Whether every row is led by its primary key, a number of some kind. -/
def LedBy (t : Table) (kind : Nat → Prop) : Prop :=
  ∀ row ∈ t.rows, ∃ id, kind id ∧ row.head? = some (primaryKey, .ofNat id)

/-- The number that a row is led by, as a float. -/
theorem asNumber?_of_head? (h : row.head? = some (primaryKey, .ofNat id)) :
    (row.getD primaryKey).asNumber? = some (Binary64.ofInt id) := by
  rw [Members.getD_of_head? h, Json.asNumber?_ofNat]

/-- What holds of the primary keys of a table. -/
structure Keyed (t : Table) : Prop where
  led : t.LedBy (· ≤ t.lastId)
  distinct : t.keys.Nodup
  bounded : t.lastId ≤ Whole.greatest

/-- The empty table has no keys to speak of. -/
theorem keyed_empty : empty.Keyed where
  led _ hrow := absurd hrow List.not_mem_nil
  distinct := List.nodup_nil
  bounded := Nat.zero_le _

/-- The keys of a table are the numbers that lead its rows. -/
theorem Keyed.mem_keys_iff (ht : t.Keyed) : .ofNat id ∈ t.keys ↔ t.HasKey id := by
  constructor
  · intro hmem
    obtain ⟨row, hrow, hkey⟩ := List.mem_map.mp hmem
    obtain ⟨other, -, hhead⟩ := ht.led row hrow
    exact ⟨row, hrow, by rw [hhead, ← hkey, Members.getD_of_head? hhead]⟩
  · rintro ⟨row, hrow, hhead⟩
    exact List.mem_map.mpr ⟨row, hrow, Members.getD_of_head? hhead⟩

/-- No row is led by a number above the counter. -/
theorem Keyed.le_lastId (ht : t.Keyed) (h : t.HasKey id) : id ≤ t.lastId := by
  obtain ⟨row, hrow, hhead⟩ := h
  obtain ⟨other, hle, hother⟩ := ht.led row hrow
  have heq : Json.ofNat other = .ofNat id := by simpa [hother] using hhead
  rw [← (Json.ofNat_inj (Nat.le_trans hle ht.bounded)).mp heq]
  exact hle

/-! ## Adding a row -/

/-- A number is looked for among the keys. -/
theorem hasId_iff_mem_keys (hid : id ≤ Whole.greatest) : t.hasId (.ofNat id) = true ↔ .ofNat id ∈ t.keys := by
  simp only [hasId, List.any_eq_true, keys, List.mem_map, Members.getD]
  refine exists_congr fun row => and_congr_right fun _ => ?_
  cases row.get? primaryKey with
  | none => simp [(Json.ofNat_ne_null id).symm]
  | some value => simp [Json.same_ofNat_iff hid]

/-- A number is looked for among the rows that it may lead. -/
theorem Keyed.hasId_iff (ht : t.Keyed) (hid : id ≤ Whole.greatest) :
    t.hasId (.ofNat id) = true ↔ t.HasKey id :=
  (hasId_iff_mem_keys hid).trans ht.mem_keys_iff

/-- A row that brings no key gets the next one. -/
theorem newId_of_isNull (h : (row.getD primaryKey).isNull) : t.newId row = .ok (t.lastId + 1) := by
  rw [newId, Json.isNull_iff.mp h]

/-- A key that is no number is refused. -/
theorem newId_of_asNat?_eq_none (hnull : ¬(row.getD primaryKey).isNull)
    (h : (row.getD primaryKey).asNat? = none) :
    t.newId row = .error (.invalidPrimaryKey (row.getD primaryKey)) := by
  unfold newId
  split
  · next heq => exact absurd (by rw [heq]; rfl) hnull
  · rw [h]

/-- A key that a row has is refused, any other number is kept. -/
theorem newId_of_asNat?_eq_some (h : (row.getD primaryKey).asNat? = some id) :
    t.newId row =
      if t.hasId (.ofNat id) then .error (.duplicatePrimaryKey id) else .ok id := by
  obtain ⟨hid, hvalue⟩ := Json.asNat?_eq_some_iff.mp h
  unfold newId
  split
  · next heq => exact absurd (hvalue.symm.trans heq) (Json.ofNat_ne_null id)
  · rw [h]
    rw [hvalue]

/-- Adding a row succeeds with the key found for it, and puts the row last. -/
theorem insert_of_newId (h : t.newId row = .ok id) :
    t.insert row = .ok (stored id row, ⟨t.rows ++ [stored id row], max t.lastId id⟩) := by
  rw [insert, h]

/-- A row without a key to be found is not added. -/
theorem insert_of_newId_error {fault : StoreError} (h : t.newId row = .error fault) :
    t.insert row = .error fault := by
  rw [insert, h]

/-- The key found for a row is the next one, if it brings none, or the one it brings, which no row has. -/
theorem newId_eq_ok (h : t.newId row = .ok id) :
    (row.getD primaryKey).isNull ∧ id = t.lastId + 1 ∨
      (row.getD primaryKey).asNat? = some id ∧ t.hasId (.ofNat id) = false := by
  by_cases hnull : (row.getD primaryKey).isNull
  · rw [newId_of_isNull hnull] at h
    exact .inl ⟨hnull, (Except.ok.inj h).symm⟩
  · cases hnat : (row.getD primaryKey).asNat? with
    | none => simp [newId_of_asNat?_eq_none hnull hnat] at h
    | some other =>
      rw [newId_of_asNat?_eq_some hnat] at h
      split at h
      · cases h
      · next hnot =>
        obtain rfl := Except.ok.inj h
        exact .inr ⟨rfl, Bool.eq_false_iff.mpr hnot⟩

/-- The key of an added row, if it is of 64 bits, is new. -/
theorem LedBy.not_mem_keys (ht : t.LedBy (· ≤ t.lastId)) (h : t.newId row = .ok id) (hid : id ≤ Whole.greatest) :
    .ofNat id ∉ t.keys := by
  obtain ⟨-, rfl⟩ | ⟨-, hnot⟩ := newId_eq_ok h
  · intro hmem
    obtain ⟨other, hother, hkey⟩ := List.mem_map.mp hmem
    obtain ⟨key, hle, hhead⟩ := ht other hother
    have heq : t.lastId + 1 = key := (Json.ofNat_inj hid).mp (hkey.symm.trans (Members.getD_of_head? hhead))
    omega
  · intro hmem
    rw [(hasId_iff_mem_keys hid).mpr hmem] at hnot
    cases hnot

/-- The key of an added row is of 64 bits, unless the table has to give a greater one. -/
theorem le_greatest_of_newId (hfits : (row.getD primaryKey).isNull → t.lastId < Whole.greatest)
    (h : t.newId row = .ok id) : id ≤ Whole.greatest := by
  obtain ⟨hnull, rfl⟩ | ⟨hnat, -⟩ := newId_eq_ok h
  · exact hfits hnull
  · exact (Json.asNat?_eq_some_iff.mp hnat).1

/-- The key of an added row is of 64 bits and new. -/
theorem Keyed.newId_fresh (ht : t.Keyed)
    (hfits : (row.getD primaryKey).isNull → t.lastId < Whole.greatest) (h : t.newId row = .ok id) :
    id ≤ Whole.greatest ∧ ¬t.HasKey id :=
  have hid := le_greatest_of_newId hfits h
  ⟨hid, fun hkey => ht.led.not_mem_keys h hid (ht.mem_keys_iff.mpr hkey)⟩

/-- With a row more the rows are led by numbers of the kind, if the row is. -/
theorem LedBy.append {kind : Nat → Prop} (ht : t.LedBy kind) (hid : kind id) (row : Row) (lastId : Nat) :
    LedBy ⟨t.rows ++ [stored id row], lastId⟩ kind := by
  intro other hother
  rcases List.mem_append.mp hother with hmem | hmem
  · exact ht other hmem
  · obtain rfl := List.mem_singleton.mp hmem
    exact ⟨id, hid, rfl⟩

/-- With a row more the rows are led by numbers up to the counter. -/
theorem LedBy.insert (ht : t.LedBy (· ≤ t.lastId)) (row : Row) (id : Nat) :
    LedBy ⟨t.rows ++ [stored id row], max t.lastId id⟩ (· ≤ max t.lastId id) := by
  have hled : t.LedBy (· ≤ max t.lastId id) := fun other hother => by
    obtain ⟨key, hle, hkey⟩ := ht other hother
    exact ⟨key, Nat.le_trans hle (Nat.le_max_left ..), hkey⟩
  exact hled.append (Nat.le_max_right ..) row _

/-- The keys with a row more. -/
theorem keys_append_stored (t : Table) (row : Row) (id lastId : Nat) :
    keys ⟨t.rows ++ [stored id row], lastId⟩ = t.keys ++ [.ofNat id] := by
  have hhead : (stored id row).head? = some (primaryKey, .ofNat id) := rfl
  simp only [keys, List.map_append, List.map_cons, List.map_nil, Members.getD_of_head? hhead]

/-- Adding a row keeps the invariant. -/
theorem Keyed.insert (ht : t.Keyed) {added : Row}
    (hfits : (row.getD primaryKey).isNull → t.lastId < Whole.greatest)
    (h : t.insert row = .ok (added, after)) : after.Keyed := by
  cases hnew : t.newId row with
  | error fault => simp [insert_of_newId_error hnew] at h
  | ok id =>
    rw [insert_of_newId hnew] at h
    obtain ⟨rfl, rfl⟩ := Prod.mk.inj (Except.ok.inj h)
    obtain ⟨hid, hfresh⟩ := ht.newId_fresh hfits hnew
    constructor
    · exact ht.led.insert row id
    · rw [keys_append_stored]
      refine List.nodup_append.mpr ⟨ht.distinct, List.pairwise_singleton _ _, ?_⟩
      intro key hkey other hother heq
      rw [List.mem_singleton.mp hother] at heq
      exact hfresh (ht.mem_keys_iff.mp (heq ▸ hkey))
    · exact Nat.max_le.mpr ⟨ht.bounded, hid⟩

/-! ## Changing and dropping rows -/

/-- New values leave the primary key of a row alone. -/
theorem getD_overlay (row patch : Row) : (overlay row patch).getD primaryKey = row.getD primaryKey := by
  unfold Members.getD overlay
  rw [Members.get?_extend_of_not_mem]
  simp [Members.names]

/-- New values leave the place of the primary key alone. -/
theorem head?_overlay {value : Json} (h : row.head? = some (primaryKey, value)) (patch : Row) :
    (overlay row patch).head? = some (primaryKey, value) := by
  unfold overlay Members.extend
  have hnames : ∀ entry ∈ patch.filter fun entry => decide (entry.1 ≠ primaryKey), entry.1 ≠ primaryKey :=
    fun entry hmem => by simpa using (List.mem_filter.mp hmem).2
  generalize patch.filter (fun entry => decide (entry.1 ≠ primaryKey)) = values at hnames
  induction values generalizing row with
  | nil => exact h
  | cons entry rest ih =>
    obtain ⟨tail, rfl⟩ := List.head?_eq_some_iff.mp h
    refine ih ?_ fun other hmem => hnames other (List.mem_cons_of_mem _ hmem)
    simp [Members.insert, (hnames entry List.mem_cons_self).symm]

/-- Every row of a changed table is a row of the table, perhaps with new values. -/
theorem mem_patchRows {clause : Clause} {patch : Row} {rows : List Row} {limit : Option Nat}
    (h : row ∈ (patchRows clause patch rows limit).1) :
    ∃ old ∈ rows, row = old ∨ row = overlay old patch := by
  induction rows generalizing limit with
  | nil => cases h
  | cons first rest ih =>
    have hlater {bound : Option Nat} (hmem : row ∈ (patchRows clause patch rest bound).1) :
        ∃ old ∈ first :: rest, row = old ∨ row = overlay old patch := by
      obtain ⟨old, hold, hrow⟩ := ih hmem
      exact ⟨old, List.mem_cons_of_mem _ hold, hrow⟩
    rw [patchRows] at h
    split at h
    · exact ⟨row, h, Or.inl rfl⟩
    · split at h
      · rcases List.mem_cons.mp h with rfl | hmem
        · exact ⟨first, List.mem_cons_self, Or.inr rfl⟩
        · exact hlater hmem
      · rcases List.mem_cons.mp h with rfl | hmem
        · exact ⟨row, List.mem_cons_self, Or.inl rfl⟩
        · exact hlater hmem

/-- Changing rows leaves every primary key where it is. -/
theorem keys_patchRows (clause : Clause) (patch : Row) (rows : List Row) (limit : Option Nat) :
    (patchRows clause patch rows limit).1.map (Members.getD · primaryKey) =
      rows.map (Members.getD · primaryKey) := by
  induction rows generalizing limit with
  | nil => rfl
  | cons first rest ih =>
    rw [patchRows]
    split
    · rfl
    · split
      · simp only [List.map_cons, ih, getD_overlay]
      · simp only [List.map_cons, ih]

/-- Changing rows leaves the keys of the table as they are. -/
theorem keys_patch (t : Table) (clause : Clause) (values : Row) (limit : Option Nat) :
    (t.patch clause values limit).2.keys = t.keys :=
  keys_patchRows clause values t.rows limit

/-- Changed rows are led by the same numbers. -/
theorem LedBy.patch {kind : Nat → Prop} (ht : t.LedBy kind) (clause : Clause) (values : Row)
    (limit : Option Nat) : (t.patch clause values limit).2.LedBy kind := by
  intro row hrow
  obtain ⟨old, hold, hcases⟩ := mem_patchRows hrow
  obtain ⟨id, hid, hhead⟩ := ht old hold
  rcases hcases with rfl | rfl
  · exact ⟨id, hid, hhead⟩
  · exact ⟨id, hid, head?_overlay hhead values⟩

/-- The rows that are left are led by the same numbers. -/
theorem LedBy.delete {kind : Nat → Prop} (ht : t.LedBy kind) (clause : Clause) :
    (t.delete clause).2.LedBy kind :=
  fun row hrow => ht row (List.mem_filter.mp hrow).1

/-- Changing rows keeps the invariant. -/
theorem Keyed.patch (ht : t.Keyed) (clause : Clause) (values : Row) (limit : Option Nat) :
    (t.patch clause values limit).2.Keyed where
  led := ht.led.patch clause values limit
  distinct := (keys_patch t clause values limit).symm ▸ ht.distinct
  bounded := ht.bounded

/-- Dropping rows keeps the invariant. -/
theorem Keyed.delete (ht : t.Keyed) (clause : Clause) : (t.delete clause).2.Keyed where
  led := ht.led.delete clause
  distinct := ht.distinct.sublist (List.filter_sublist.map _)
  bounded := ht.bounded

/-! ## Steps -/

/-- Adding a row, if it can be added, keeps the invariant. -/
theorem Keyed.step (ht : t.Keyed) (action : StoreStep)
    (hfits : ∀ name row, action = .insert name row → (row.getD primaryKey).isNull →
      t.lastId < Whole.greatest) : (t.step action).Keyed := by
  cases action with
  | createTable name => exact ht
  | truncate => exact keyed_empty
  | insert name row =>
    rw [Table.step]
    cases hinsert : t.insert row with
    | error fault => exact ht
    | ok added => exact ht.insert (hfits name row rfl) hinsert
  | patch name clause values limit => exact ht.patch clause values limit
  | delete name clause => exact ht.delete clause

/-- Every step leaves rows that are led by numbers, also one that needs a number beyond 64 bits. -/
theorem LedBy.step (ht : t.LedBy fun _ => True) (action : StoreStep) :
    (t.step action).LedBy fun _ => True := by
  cases action with
  | createTable name => exact ht
  | truncate => exact fun _ hrow => absurd hrow List.not_mem_nil
  | insert name row =>
    rw [Table.step]
    cases hnew : t.newId row with
    | error fault =>
      rw [insert_of_newId_error hnew]
      exact ht
    | ok id =>
      rw [insert_of_newId hnew]
      exact ht.append trivial row _
  | patch name clause values limit => exact ht.patch clause values limit
  | delete name clause => exact ht.delete clause

/-- No step but emptying sets the counter back. -/
theorem lastId_le_step (t : Table) {action : StoreStep} (h : action ≠ .truncate) :
    t.lastId ≤ (t.step action).lastId := by
  cases action with
  | truncate => exact absurd rfl h
  | createTable | patch | delete => exact Nat.le_refl _
  | insert name row =>
    rw [Table.step]
    cases hnew : t.newId row with
    | error fault =>
      rw [insert_of_newId_error hnew]
      exact Nat.le_refl _
    | ok id =>
      rw [insert_of_newId hnew]
      exact Nat.le_max_left ..

/-- What holds of the primary keys of a table also if it has to give keys beyond 64 bits. -/
structure Counted (t : Table) : Prop where
  led : t.LedBy (· ≤ t.lastId)
  apart : t.keys.Pairwise fun a b => ∀ id, a.asNat? = some id → b.asNat? ≠ some id

/-- The empty table is counted. -/
theorem counted_empty : empty.Counted where
  led _ hrow := absurd hrow List.not_mem_nil
  apart := .nil

/-- Every step leaves rows that are led by numbers up to the counter, and apart from each other. -/
theorem Counted.step (ht : t.Counted) (action : StoreStep) : (t.step action).Counted := by
  cases action with
  | createTable name => exact ht
  | truncate => exact counted_empty
  | insert name row =>
    rw [Table.step]
    cases hnew : t.newId row with
    | error fault =>
      rw [insert_of_newId_error hnew]
      exact ht
    | ok id =>
      rw [insert_of_newId hnew]
      refine ⟨ht.led.insert row id, ?_⟩
      change (keys ⟨t.rows ++ [stored id row], max t.lastId id⟩).Pairwise _
      rw [keys_append_stored]
      refine List.pairwise_append.mpr ⟨ht.apart, List.pairwise_singleton _ _, ?_⟩
      intro key hkey other hother n hn
      obtain rfl := List.mem_singleton.mp hother
      intro hid
      obtain ⟨hbits, rfl⟩ := Json.asNat?_eq_some_iff.mp hn
      obtain rfl := (Json.ofNat_inj hbits).mp (Json.asNat?_eq_some_iff.mp hid).2.symm
      exact ht.led.not_mem_keys hnew hbits hkey
  | patch name clause values limit =>
    exact ⟨ht.led.patch clause values limit, (keys_patch t clause values limit).symm ▸ ht.apart⟩
  | delete name clause => exact ⟨ht.led.delete clause, ht.apart.sublist (List.filter_sublist.map _)⟩

end Table

/-! ## Runs of a store -/

namespace Store

variable {s : Store}

/-- Whether a step needs no primary key beyond 64 bits. -/
def Fits (s : Store) : StoreStep → Prop
  | .insert name row =>
    ∀ t ∈ s.tables.get? name, (row.getD primaryKey).isNull → t.lastId < Whole.greatest
  | _ => True

instance (s : Store) : DecidablePred s.Fits
  | .insert name row =>
    inferInstanceAs (Decidable (∀ t ∈ s.tables.get? name,
      (row.getD primaryKey).isNull = true → t.lastId < Whole.greatest))
  | .createTable _ | .truncate | .patch .. | .delete .. => inferInstanceAs (Decidable True)

/-- Whether no step of a run needs a primary key beyond 64 bits. -/
def RunFits (s : Store) : List StoreStep → Prop
  | [] => True
  | first :: rest => s.Fits first ∧ (s.step first).RunFits rest

/-- Decides whether a run needs no primary key beyond 64 bits. -/
def decideRunFits (s : Store) : (steps : List StoreStep) → Decidable (s.RunFits steps)
  | [] => inferInstanceAs (Decidable True)
  | first :: rest =>
    have := decideRunFits (s.step first) rest
    inferInstanceAs (Decidable (s.Fits first ∧ (s.step first).RunFits rest))

instance (s : Store) : DecidablePred s.RunFits :=
  s.decideRunFits

/-- The first part of a run fits, and so does the rest from there. -/
theorem runFits_append {early late : List StoreStep} :
    s.RunFits (early ++ late) ↔ s.RunFits early ∧ (s.run early).RunFits late := by
  induction early generalizing s with
  | nil => simp [RunFits, run]
  | cons first rest ih =>
    simp only [List.cons_append, RunFits, ih, and_assoc]
    rfl

/-- Whether the invariant holds of every table. -/
def Keyed (s : Store) : Prop :=
  ∀ name, ∀ t ∈ s.tables.get? name, t.Keyed

/-- A new store has no keys. -/
theorem keyed_ofTables (names : List String) : (ofTables names).Keyed := by
  intro name t ht
  rw [eq_empty_of_ofTables ht]
  exact Table.keyed_empty

/-- A step keeps the invariant. -/
theorem Keyed.step (hs : s.Keyed) {action : StoreStep} (hfits : s.Fits action) : (s.step action).Keyed := by
  refine forall_tables_step (fun _ => Table.keyed_empty) hs fun name t ht hconcerns => ?_
  refine (hs name t ht).step action fun other row heq => ?_
  subst heq
  obtain rfl : other = name := by simpa [StoreStep.concerns] using hconcerns
  exact hfits t ht

/-- A run keeps the invariant. -/
theorem Keyed.run (hs : s.Keyed) {steps : List StoreStep} (hfits : s.RunFits steps) :
    (s.run steps).Keyed := by
  induction steps generalizing s with
  | nil => exact hs
  | cons first rest ih => exact ih (hs.step hfits.1) hfits.2

/-- Whether every row of every table is led by a number as its primary key. -/
def Numbered (s : Store) : Prop :=
  ∀ name, ∀ t ∈ s.tables.get? name, t.LedBy fun _ => True

/-- Every run leaves every row led by a number. -/
theorem numbered_run (names : List String) (steps : List StoreStep) :
    ((ofTables names).run steps).Numbered :=
  forall_tables_run (P := fun t => t.LedBy fun _ => True) (fun _ hrow => absurd hrow List.not_mem_nil)
    (fun _ ht => ht.step) names steps

/-- Every run leaves every table counted. -/
theorem counted_run (names : List String) (steps : List StoreStep) :
    ∀ name, ∀ t ∈ ((ofTables names).run steps).tables.get? name, t.Counted :=
  forall_tables_run Table.counted_empty (fun _ ht => ht.step) names steps

/-- Without emptying, a table stays through a run and its counter is not set back. -/
theorem lastId_le_of_run {name : String} {t : Table} {steps : List StoreStep}
    (hsteps : .truncate ∉ steps) (ht : s.tables.get? name = some t) :
    ∃ after, (s.run steps).tables.get? name = some after ∧ t.lastId ≤ after.lastId := by
  induction steps generalizing s t with
  | nil => exact ⟨t, ht, Nat.le_refl _⟩
  | cons first rest ih =>
    obtain ⟨hfirst, hrest⟩ := not_or.mp (fun h => hsteps (List.mem_cons.mpr h))
    obtain ⟨after, hafter, hle⟩ := ih hrest (get?_step_of_some ht first)
    refine ⟨after, hafter, Nat.le_trans ?_ hle⟩
    split
    · exact t.lastId_le_step (Ne.symm hfirst)
    · exact Nat.le_refl _

/-- What adding a row to a table under a key comes to, with the row as stored and the store afterwards. -/
structure Adds (now : Store) (name : String) (t : Table) (row : Row) (id : Nat) (added : Row)
    (after : Store) : Prop where
  /-- The row is accepted. -/
  accepted : now.insert name row = .ok (added, after)
  /-- A step of a run goes on from the store that the insertion gives. -/
  step_eq : now.step (.insert name row) = after
  /-- The stored row is led by the key. -/
  leads : added.head? = some (primaryKey, .ofNat id)
  /-- Behind the key it has the entries of the row. -/
  entries : added.tail = row.filter fun entry => entry.1 ≠ primaryKey
  /-- The stored row comes behind the rows of the table, and the counter is raised to its key. -/
  grown : after.tables.get? name = some ⟨t.rows ++ [added], max t.lastId id⟩
  /-- No other table is touched. -/
  frame : ∀ other, name ≠ other → after.tables.get? other = now.tables.get? other

/-- A row for which a key is found is added under the key. -/
theorem adds_of_newId {name : String} {t : Table} {row : Row} {id : Nat}
    (ht : s.tables.get? name = some t) (h : t.newId row = .ok id) :
    ∃ added after, s.Adds name t row id added after := by
  have haccepted : s.insert name row = .ok (Table.stored id row,
      s.withTable name ⟨t.rows ++ [Table.stored id row], max t.lastId id⟩) := by
    rw [insert_of_table ht, Table.insert_of_newId h]
    rfl
  refine ⟨_, _, haccepted, ?_, rfl, rfl, ?_, fun other hother => ?_⟩
  · rw [Store.step, haccepted]
    rfl
  · rw [get?_withTable, if_pos rfl]
  · rw [get?_withTable, if_neg hother]

/-- A row for which no key is found is refused, and the store stays as it is. -/
theorem insert_of_newId_error {name : String} {t : Table} {row : Row} {fault : StoreError}
    (ht : s.tables.get? name = some t) (h : t.newId row = .error fault) :
    s.insert name row = .error fault ∧ s.step (.insert name row) = s := by
  have herror : s.insert name row = .error fault := by
    rw [insert_of_table ht, Table.insert_of_newId_error h]
    rfl
  refine ⟨herror, ?_⟩
  simp only [Store.step, herror]
  rfl

/-- A change of rows leaves the keys and the counter of every table as they are. -/
theorem keys_of_step_patch {name : String} {t : Table} (ht : s.tables.get? name = some t)
    (changed : String) (clause : Clause) (values : Row) (limit : Option Nat) :
    ∃ after, (s.step (.patch changed clause values limit)).tables.get? name = some after ∧
      after.keys = t.keys ∧ after.lastId = t.lastId := by
  refine ⟨_, get?_step_of_some ht _, ?_⟩
  split
  · exact ⟨Table.keys_patch t clause values limit, rfl⟩
  · exact ⟨rfl, rfl⟩

/-- What is true of primary keys in a store, given an earlier state of it since which it was not emptied. -/
structure KeysKept (past now : Store) : Prop where
  /-- Every row is led by a number of 64 bits, no other row of the table has it, and the counter is not
  behind it. -/
  keyed : now.Keyed
  /-- The counter is not behind a key that a row of the table had. -/
  counted : ∀ name, ∀ before ∈ past.tables.get? name, ∃ t ∈ now.tables.get? name,
    ∀ id, before.HasKey id → id ≤ t.lastId
  /-- A row that brings no key is added under one of 64 bits, above every key that a row of the table had. -/
  above : ∀ name, ∀ t ∈ now.tables.get? name, ∀ row : Row, (row.getD primaryKey).isNull →
    t.lastId < Whole.greatest → ∃ id ≤ Whole.greatest,
      (∃ added after, now.Adds name t row id added after) ∧
      ∀ before ∈ past.tables.get? name, ∀ old, before.HasKey old → old < id
  /-- A row that brings a number that no row of the table has is added under this number. -/
  kept : ∀ name, ∀ t ∈ now.tables.get? name, ∀ row : Row, ∀ id ∈ (row.getD primaryKey).asNat?,
    ¬t.HasKey id → ∃ added after, now.Adds name t row id added after
  /-- A number that a row of the table has is refused as a key, and nothing changes. -/
  duplicate : ∀ name, ∀ t ∈ now.tables.get? name, ∀ row : Row, ∀ id ∈ (row.getD primaryKey).asNat?,
    t.HasKey id → now.insert name row = .error (.duplicatePrimaryKey id) ∧
      now.step (.insert name row) = now
  /-- What is no number of 64 bits is refused as a key, and nothing changes. -/
  invalid : ∀ name, ∀ t ∈ now.tables.get? name, ∀ row : Row, ¬(row.getD primaryKey).isNull →
    (row.getD primaryKey).asNat? = none →
      now.insert name row = .error (.invalidPrimaryKey (row.getD primaryKey)) ∧
        now.step (.insert name row) = now
  /-- A change of rows, in whatever table, changes no key and no counter. -/
  patched : ∀ name, ∀ t ∈ now.tables.get? name, ∀ changed clause values limit,
    ∃ after ∈ (now.step (.patch changed clause values limit)).tables.get? name,
      after.keys = t.keys ∧ after.lastId = t.lastId

/-- At any two moments of a run, the second one not parted from the first by an emptying, primary keys are
what they should be. -/
theorem run_keysKept (names : List String) {early late : List StoreStep}
    (hfits : (ofTables names).RunFits (early ++ late)) (hlate : .truncate ∉ late) :
    KeysKept ((ofTables names).run early) ((ofTables names).run (early ++ late)) := by
  have hearly := (runFits_append.mp hfits).1
  have hpast : ((ofTables names).run early).Keyed := (keyed_ofTables names).run hearly
  have hnow : ((ofTables names).run (early ++ late)).Keyed := (keyed_ofTables names).run hfits
  have hcounted : ∀ name, ∀ before ∈ ((ofTables names).run early).tables.get? name,
      ∃ t ∈ ((ofTables names).run (early ++ late)).tables.get? name,
        ∀ id, before.HasKey id → id ≤ t.lastId := by
    intro name before hbefore
    obtain ⟨t, ht, hle⟩ := lastId_le_of_run hlate hbefore
    rw [← run_append] at ht
    exact ⟨t, ht, fun id hid => Nat.le_trans ((hpast name before hbefore).le_lastId hid) hle⟩
  generalize (ofTables names).run early = past at *
  generalize (ofTables names).run (early ++ late) = now at *
  constructor
  · exact hnow
  · exact hcounted
  · intro name t ht row hnull hroom
    refine ⟨t.lastId + 1, hroom, adds_of_newId ht (Table.newId_of_isNull hnull), ?_⟩
    intro before hbefore old hold
    obtain ⟨t', ht', hle⟩ := hcounted name before hbefore
    obtain rfl : t = t' := Option.some.inj (ht.symm.trans ht')
    exact Nat.lt_succ_of_le (hle old hold)
  · intro name t ht row id hnat hkey
    have hthere := (hnow name t ht).hasId_iff (Json.asNat?_eq_some_iff.mp hnat).1
    have hnew := Table.newId_of_asNat?_eq_some (t := t) hnat
    rw [if_neg fun h => hkey (hthere.mp h)] at hnew
    exact adds_of_newId ht hnew
  · intro name t ht row id hnat hkey
    have hthere := (hnow name t ht).hasId_iff (Json.asNat?_eq_some_iff.mp hnat).1
    have hnew := Table.newId_of_asNat?_eq_some (t := t) hnat
    rw [if_pos (hthere.mpr hkey)] at hnew
    exact insert_of_newId_error ht hnew
  · intro name t ht row hnull hnat
    exact insert_of_newId_error ht (Table.newId_of_asNat?_eq_none hnull hnat)
  · intro name t ht changed clause values limit
    exact keys_of_step_patch ht changed clause values limit

/-- Rows are added with and without keys, one of them goes, all of them are renamed, and one more comes. -/
theorem run_keysKept_of_reused_key :
    (ofTables ["books"]).RunFits
        ([.insert "books" [("title", .str "Emma")],
            .insert "books" [("title", .str "Dune"), (primaryKey, .ofNat 7)], .delete "books" .empty] ++
          [.insert "books" [(primaryKey, .ofNat 7)], .insert "books" [(primaryKey, .str "7")],
            .patch "books" .empty [(primaryKey, .ofNat 1), ("title", .null)] none,
            .insert "books" []]) ∧
      KeysKept
        ((ofTables ["books"]).run
          [.insert "books" [("title", .str "Emma")],
            .insert "books" [("title", .str "Dune"), (primaryKey, .ofNat 7)], .delete "books" .empty])
        ((ofTables ["books"]).run
          ([.insert "books" [("title", .str "Emma")],
              .insert "books" [("title", .str "Dune"), (primaryKey, .ofNat 7)], .delete "books" .empty] ++
            [.insert "books" [(primaryKey, .ofNat 7)], .insert "books" [(primaryKey, .str "7")],
              .patch "books" .empty [(primaryKey, .ofNat 1), ("title", .null)] none,
              .insert "books" []])) :=
  ⟨by decide +kernel, run_keysKept ["books"] (by decide +kernel) (by simp)⟩

end Store

end SchemaQuery
