import SchemaQuery.Filter.ValueOrder
import SchemaQuery.Proofs.Basic

/-!
# Equality of values

Equality of JSON values is an equivalence: the members of two objects are matched name by name, whatever
their order, so a match can be turned around and two matches can be joined. Equality of column values is an
equivalence of everything but null, although it compares numbers and booleans by value. A value can stand
in place of another that is the same: columns are compared with the two alike.
-/

namespace SchemaQuery

namespace Members

/-- Taking a name out leaves the other names alone. -/
theorem get?_erase_of_ne (m : Members) {name wanted : String} (h : name ≠ wanted) :
    (m.erase name).get? wanted = m.get? wanted := by
  induction m with
  | nil => rfl
  | cons entry rest ih =>
    obtain ⟨other, value⟩ := entry
    by_cases hother : other = name
    · have hne : other ≠ wanted := fun heq => h (hother.symm.trans heq)
      rw [erase, if_pos hother, get?, if_neg hne]
    · rw [erase, if_neg hother, get?, get?, ih]

/-- The order in which two names are taken out is no matter. -/
theorem erase_comm (m : Members) {name other : String} (h : name ≠ other) :
    (m.erase name).erase other = (m.erase other).erase name := by
  induction m with
  | nil => rfl
  | cons entry rest ih =>
    obtain ⟨first, value⟩ := entry
    by_cases hname : first = name
    · have hother : first ≠ other := fun heq => h (hname.symm.trans heq)
      simp [erase, hname, h]
    · by_cases hother : first = other
      · simp [erase, hother, Ne.symm h]
      · simp [erase, hname, hother, ih]

end Members

/-! ## Matching the members of objects -/

/-- A member of the second object is matched with the first one of its name in the first object. -/
theorem sameMembers_cons_right {a b : Members} {name : String} {value : Json} :
    sameMembers a ((name, value) :: b) = true ↔
      ∃ found, a.get? name = some found ∧ found.same value = true ∧
        sameMembers (a.erase name) b = true := by
  induction a generalizing b with
  | nil => simp [sameMembers, Members.get?]
  | cons entry rest ih =>
    obtain ⟨other, old⟩ := entry
    by_cases hname : name = other
    · subst hname
      simp [sameMembers, Members.get?, Members.erase]
    · rw [sameMembers, Members.get?, if_neg hname, Members.get?, if_neg (Ne.symm hname),
        Members.erase, Members.erase, if_neg hname, if_neg (Ne.symm hname), sameMembers]
      cases b.get? other with
      | none => simp
      | some found =>
        simp only [Bool.and_eq_true, ih]
        constructor
        · rintro ⟨hold, partner, hget, hsame, hrest⟩
          exact ⟨partner, hget, hsame, hold, hrest⟩
        · rintro ⟨partner, hget, hsame, hold, hrest⟩
          exact ⟨hold, partner, hget, hsame, hrest⟩

/-- A name of the first of two equal objects is in the second, with an equal value, and the objects are equal
without it. -/
theorem exists_of_sameMembers {a b : Members} {name : String} {value : Json}
    (h : sameMembers a b = true) (hvalue : a.get? name = some value) :
    ∃ found, b.get? name = some found ∧ value.same found = true ∧
      sameMembers (a.erase name) (b.erase name) = true := by
  induction a generalizing b with
  | nil => cases hvalue
  | cons entry rest ih =>
    obtain ⟨other, old⟩ := entry
    rw [sameMembers] at h
    cases hother : b.get? other with
    | none => simp [hother] at h
    | some found =>
      simp only [hother, Bool.and_eq_true] at h
      by_cases hname : other = name
      · subst hname
        obtain rfl : old = value := by simpa [Members.get?] using hvalue
        exact ⟨found, hother, h.1, by simpa [Members.erase] using h.2⟩
      · rw [Members.get?, if_neg hname] at hvalue
        obtain ⟨partner, hget, hsame, hrest⟩ := ih h.2 hvalue
        rw [Members.get?_erase_of_ne b hname] at hget
        refine ⟨partner, hget, hsame, ?_⟩
        rw [Members.erase, if_neg hname, sameMembers, Members.get?_erase_of_ne b (Ne.symm hname), hother]
        rw [Members.erase_comm b hname] at hrest
        simp [h.1, hrest]

/-! ## Equality is an equivalence -/

mutual

/-- A value equals itself. -/
theorem Json.same_refl : (a : Json) → a.same a = true
  | .null => rfl
  | .bool a | .int a | .str a => by simp [Json.same]
  | .float a => by simp [Json.same, Binary64.sameValue]
  | .arr a => by
    rw [Json.same]
    exact sameItems_refl a
  | .obj a => by
    rw [Json.same]
    exact sameMembers_refl a

/-- An array equals itself. -/
theorem sameItems_refl : (a : List Json) → sameItems a a = true
  | [] => rfl
  | a :: as => by simp [sameItems, Json.same_refl a, sameItems_refl as]

/-- An object equals itself. -/
theorem sameMembers_refl : (a : List (String × Json)) → sameMembers a a = true
  | [] => rfl
  | (name, value) :: rest => by
    simp [sameMembers, Members.get?, Members.erase, Json.same_refl value, sameMembers_refl rest]

end

mutual

/-- Equality can be turned around. -/
theorem Json.same_symm : (a b : Json) → a.same b = true → b.same a = true
  | .null, b, h => by cases b <;> simp_all [Json.same]
  | .bool _, b, h | .int _, b, h | .str _, b, h => by cases b <;> simp_all [Json.same]
  | .float _, b, h => by cases b <;> simp_all [Json.same, Binary64.sameValue]
  | .arr a, .arr b, h => by
    rw [Json.same] at h ⊢
    exact sameItems_symm a b h
  | .obj a, .obj b, h => by
    rw [Json.same] at h ⊢
    exact sameMembers_symm a b h
  | .arr _, .null, h | .arr _, .bool _, h | .arr _, .int _, h | .arr _, .float _, h | .arr _, .str _, h
  | .arr _, .obj _, h => by simp [Json.same] at h
  | .obj _, .null, h | .obj _, .bool _, h | .obj _, .int _, h | .obj _, .float _, h | .obj _, .str _, h
  | .obj _, .arr _, h => by simp [Json.same] at h

/-- Equality of arrays can be turned around. -/
theorem sameItems_symm : (a b : List Json) → sameItems a b = true → sameItems b a = true
  | [], b, h => by cases b <;> simp_all [sameItems]
  | _ :: _, [], h => by simp [sameItems] at h
  | a :: as, b :: bs, h => by
    simp only [sameItems, Bool.and_eq_true] at h ⊢
    exact ⟨Json.same_symm a b h.1, sameItems_symm as bs h.2⟩

/-- Equality of objects can be turned around. -/
theorem sameMembers_symm : (a : List (String × Json)) → (b : Members) →
    sameMembers a b = true → sameMembers b a = true
  | [], b, h => by
    obtain rfl : b = [] := by simpa [sameMembers] using h
    rfl
  | (name, value) :: rest, b, h => by
    rw [sameMembers] at h
    cases hget : b.get? name with
    | none => simp [hget] at h
    | some found =>
      simp only [hget, Bool.and_eq_true] at h
      exact sameMembers_cons_right.mpr
        ⟨found, hget, Json.same_symm value found h.1, sameMembers_symm rest (b.erase name) h.2⟩

end

mutual

/-- Two equalities can be joined. -/
theorem Json.same_trans : (a b c : Json) → a.same b = true → b.same c = true → a.same c = true
  | .null, b, c, hab, hbc => by cases b <;> cases c <;> simp_all [Json.same]
  | .bool _, b, c, hab, hbc | .int _, b, c, hab, hbc | .str _, b, c, hab, hbc => by
    cases b <;> cases c <;> simp_all [Json.same]
  | .float _, b, c, hab, hbc => by cases b <;> cases c <;> simp_all [Json.same, Binary64.sameValue]
  | .arr a, b, c, hab, hbc => by
    cases b with
    | arr b =>
      cases c with
      | arr c =>
        rw [Json.same] at hab hbc ⊢
        exact sameItems_trans a b c hab hbc
      | _ => simp [Json.same] at hbc
    | _ => simp [Json.same] at hab
  | .obj a, b, c, hab, hbc => by
    cases b with
    | obj b =>
      cases c with
      | obj c =>
        rw [Json.same] at hab hbc ⊢
        exact sameMembers_trans a b c hab hbc
      | _ => simp [Json.same] at hbc
    | _ => simp [Json.same] at hab

/-- Two equalities of arrays can be joined. -/
theorem sameItems_trans : (a b c : List Json) →
    sameItems a b = true → sameItems b c = true → sameItems a c = true
  | [], b, c, hab, hbc => by cases b <;> cases c <;> simp_all [sameItems]
  | _ :: _, [], _, hab, _ => by simp [sameItems] at hab
  | _ :: _, _ :: _, [], _, hbc => by simp [sameItems] at hbc
  | a :: as, b :: bs, c :: cs, hab, hbc => by
    simp only [sameItems, Bool.and_eq_true] at hab hbc ⊢
    exact ⟨Json.same_trans a b c hab.1 hbc.1, sameItems_trans as bs cs hab.2 hbc.2⟩

/-- Two equalities of objects can be joined. -/
theorem sameMembers_trans : (a : List (String × Json)) → (b c : Members) →
    sameMembers a b = true → sameMembers b c = true → sameMembers a c = true
  | [], b, c, hab, hbc => by
    obtain rfl : b = [] := by simpa [sameMembers] using hab
    exact hbc
  | (name, value) :: rest, b, c, hab, hbc => by
    rw [sameMembers] at hab
    cases hget : b.get? name with
    | none => simp [hget] at hab
    | some middle =>
      simp only [hget, Bool.and_eq_true] at hab
      obtain ⟨found, hfound, hsame, hrest⟩ := exists_of_sameMembers hbc hget
      rw [sameMembers, hfound]
      simp only [Bool.and_eq_true]
      exact ⟨Json.same_trans value middle found hab.1 hsame,
        sameMembers_trans rest (b.erase name) (c.erase name) hab.2 hrest⟩

end

/-! ## Equality of column values -/

namespace Json

variable {a b c : Json}

/-- A value that is null is null. -/
theorem isNull_iff : a.isNull = true ↔ a = .null := by
  cases a <;> simp [isNull]

/-- Null equals nothing. -/
theorem equals_of_isNull (h : a.isNull) (b : Json) : a.equals b = false := by
  simp [equals, h]

/-- Nothing equals null. -/
theorem equals_null (h : b.isNull) : a.equals b = false := by
  simp [equals, h]

/-- A number equals the numbers of the same value. -/
theorem equals_of_number {x : Binary64} (ha : a.asNumber? = some x) :
    a.equals b = true ↔ ∃ y, b.asNumber? = some y ∧ x.key = y.key := by
  have hnull : a.isNull = false := by cases a <;> simp_all [asNumber?, isNull]
  cases hb : b.asNumber? with
  | some y =>
    have hother : b.isNull = false := by cases b <;> simp_all [asNumber?, isNull]
    simp [equals, hnull, hother, ha, hb, Binary64.sameValue]
  | none =>
    have hsame : a.same b = false := by
      cases a <;> cases b <;> simp_all [asNumber?, same]
      all_goals split at hb <;> simp_all
    simp [equals, ha, hb, hsame]

/-- A value that is no number equals the same values, unless it is null. -/
theorem equals_of_not_number (ha : a.asNumber? = none) :
    a.equals b = true ↔ a.isNull = false ∧ a.same b = true := by
  cases hnull : a.isNull with
  | true => simp [equals_of_isNull hnull]
  | false =>
    cases hother : b.isNull with
    | true =>
      obtain rfl := isNull_iff.mp hother
      cases a <;> simp_all [equals, isNull, same]
    | false => simp [equals, hnull, hother, ha]

/-- Values that are the same are numbers together. -/
theorem asNumber?_eq_none_of_same (h : a.same b = true) (ha : a.asNumber? = none) :
    b.asNumber? = none := by
  cases a with
  | bool value => cases value <;> cases ha
  | int value | float value => cases ha
  | null | str value | arr value | obj value => cases b <;> simp_all [same, asNumber?]

/-- A value equals itself, unless it is null. -/
theorem equals_refl (h : a.isNull = false) : a.equals a = true := by
  cases ha : a.asNumber? with
  | some x => exact (equals_of_number ha).mpr ⟨x, ha, rfl⟩
  | none => exact (equals_of_not_number ha).mpr ⟨h, same_refl a⟩

/-- Equality of column values can be turned around. -/
theorem equals_symm (h : a.equals b = true) : b.equals a = true := by
  cases ha : a.asNumber? with
  | some x =>
    obtain ⟨y, hb, hkey⟩ := (equals_of_number ha).mp h
    exact (equals_of_number hb).mpr ⟨x, ha, hkey.symm⟩
  | none =>
    obtain ⟨-, hsame⟩ := (equals_of_not_number ha).mp h
    have hother : b.isNull = false := by
      cases hnull : b.isNull with
      | false => rfl
      | true =>
        rw [equals_null hnull] at h
        cases h
    exact (equals_of_not_number (asNumber?_eq_none_of_same hsame ha)).mpr ⟨hother, same_symm a b hsame⟩

/-- Two equalities of column values can be joined. -/
theorem equals_trans (hab : a.equals b = true) (hbc : b.equals c = true) : a.equals c = true := by
  cases ha : a.asNumber? with
  | some x =>
    obtain ⟨y, hb, hxy⟩ := (equals_of_number ha).mp hab
    obtain ⟨z, hc, hyz⟩ := (equals_of_number hb).mp hbc
    exact (equals_of_number ha).mpr ⟨z, hc, hxy.trans hyz⟩
  | none =>
    obtain ⟨hnull, hsame⟩ := (equals_of_not_number ha).mp hab
    have hb := asNumber?_eq_none_of_same hsame ha
    obtain ⟨-, hother⟩ := (equals_of_not_number hb).mp hbc
    exact (equals_of_not_number ha).mpr ⟨hnull, same_trans a b c hsame hother⟩

/-! ## Order of column values -/

/-- Values that are not both texts compare as numbers, if they are numbers. -/
theorem compareValues?_of_not_texts (h : a.asString? = none ∨ b.asString? = none) :
    a.compareValues? b = a.asNumber?.bind fun x => b.asNumber?.map fun y => compare x.key y.key := by
  rw [compareValues?]
  · cases a.asNumber? <;> cases b.asNumber? <;> rfl
  · rintro _ _ rfl rfl
    simp [asString?] at h

/-- Two values are both texts, or one of them is none. -/
theorem texts_or_not (a b : Json) :
    (∃ s t, a = .str s ∧ b = .str t) ∨ a.asString? = none ∨ b.asString? = none := by
  cases a with
  | str s =>
    cases b with
    | str t => exact .inl ⟨s, t, rfl, rfl⟩
    | _ => exact .inr (.inr rfl)
  | _ => exact .inr (.inl rfl)

/-- Turning two values around turns their order around. -/
theorem compareValues?_swap (a b : Json) : b.compareValues? a = (a.compareValues? b).map Ordering.swap := by
  rcases texts_or_not a b with ⟨s, t, rfl, rfl⟩ | htexts
  · exact congrArg some Std.OrientedOrd.eq_swap
  · rw [compareValues?_of_not_texts htexts, compareValues?_of_not_texts htexts.symm]
    cases a.asNumber? with
    | none => cases b.asNumber? <;> rfl
    | some x =>
      cases b.asNumber? with
      | none => rfl
      | some y => exact congrArg some Std.OrientedOrd.eq_swap

/-- Null cannot be compared. -/
theorem compareValues?_of_isNull (h : a.isNull = true ∨ b.isNull = true) : a.compareValues? b = none := by
  simp only [isNull_iff] at h
  rw [compareValues?_of_not_texts (h.imp (by rintro rfl; rfl) (by rintro rfl; rfl))]
  rcases h with rfl | rfl
  · rfl
  · cases a.asNumber? <;> rfl

/-! ## One value in place of another -/

/-- Values that are the same are null together. -/
theorem isNull_eq_of_same (h : a.same b = true) : a.isNull = b.isNull := by
  cases a <;> cases b <;> simp_all [same, isNull]

/-- Values that are the same are numbers together, and of one place. -/
theorem key_eq_of_same (h : a.same b = true) :
    a.asNumber?.map Binary64.key = b.asNumber?.map Binary64.key := by
  cases ha : a.asNumber? with
  | none => rw [asNumber?_eq_none_of_same h ha]
  | some x =>
    cases a with
    | bool value | int value | float value =>
      cases b <;> simp_all [same, asNumber?, Binary64.sameValue]
    | null | str value | arr value | obj value => cases ha

/-- Values that are the same are equal as column values, unless they are null. -/
theorem equals_of_same (hnull : a.isNull = false) (h : a.same b = true) : a.equals b = true := by
  cases ha : a.asNumber? with
  | none => exact (equals_of_not_number ha).mpr ⟨hnull, h⟩
  | some x =>
    have hkey := key_eq_of_same h
    rw [ha, Option.map_some] at hkey
    obtain ⟨y, hb, hxy⟩ := Option.map_eq_some_iff.mp hkey.symm
    exact (equals_of_number ha).mpr ⟨y, hb, hxy.symm⟩

/-- A value equals two values alike that are the same. -/
theorem equals_congr (a : Json) (h : b.same c = true) : a.equals b = a.equals c := by
  cases hb : b.isNull with
  | true => rw [equals_null hb, equals_null ((isNull_eq_of_same h).symm.trans hb)]
  | false =>
    have hequals := equals_of_same hb h
    exact Bool.eq_iff_iff.mpr
      ⟨fun hab => equals_trans hab hequals, fun hac => equals_trans hac (equals_symm hequals)⟩

/-- A value has one order to two values that are the same. -/
theorem compareValues?_congr (a : Json) (h : b.same c = true) :
    a.compareValues? b = a.compareValues? c := by
  have hkey := key_eq_of_same h
  have hnumber {b : Json} (hb : b.asString? = none) : a.compareValues? b =
      a.asNumber?.bind fun x => (b.asNumber?.map Binary64.key).map (compare x.key ·) := by
    simp only [compareValues?_of_not_texts (Or.inr hb), Option.map_map]
    rfl
  cases b with
  | str text =>
    obtain rfl : .str text = c := by cases c <;> simp_all [same]
    rfl
  | null | bool value | int value | float value | arr value | obj value =>
    rw [hnumber rfl, hnumber (by cases c <;> simp_all [same, asString?]), hkey]

end Json

/-! ## Lists of values -/

/-- Lists are the same when they are so in front and behind. -/
theorem sameItems_append {as bs : List Json} (hlength : as.length = bs.length) (xs ys : List Json) :
    sameItems (as ++ xs) (bs ++ ys) = (sameItems as bs && sameItems xs ys) := by
  induction as generalizing bs with
  | nil =>
    obtain rfl : bs = [] := List.length_eq_zero_iff.mp hlength.symm
    rfl
  | cons a rest ih =>
    cases bs with
    | nil => cases hlength
    | cons b others =>
      rw [List.cons_append, List.cons_append, sameItems, sameItems, ih (Nat.succ.inj hlength),
        Bool.and_assoc]

/-- A value equals an item of two lists alike that are the same. -/
theorem any_equals_congr (a : Json) {bs cs : List Json} (h : sameItems bs cs = true) :
    bs.any (a.equals ·) = cs.any (a.equals ·) := by
  induction bs generalizing cs with
  | nil => cases cs <;> simp_all [sameItems]
  | cons b rest ih =>
    cases cs with
    | nil => cases h
    | cons c others =>
      simp only [sameItems, Bool.and_eq_true] at h
      rw [List.any_cons, List.any_cons, Json.equals_congr a h.1, ih h.2]

end SchemaQuery
