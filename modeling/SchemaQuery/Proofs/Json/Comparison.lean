import SchemaQuery.Proofs.Json.Equality

/-!
# Equality and order of column values

Column values are compared in three ways: numbers and booleans by value, texts by their characters, and arrays and
objects member by member. Yet there is one equality, an equivalence of all values but null, and one order, which is
known just for two texts and for two numbers, turns around, and can be told across a value in between. The two agree:
values are level in the order when they have one and are equal.
-/

namespace SchemaQuery

/-- Where the first of three values stands to the last follows from how neighbours stand, unless these stand in
opposite ways. -/
theorem compare_eq_then {α : Type} [Ord α] [Std.TransOrd α] {x y z : α}
    (h : compare x y = compare y z ∨ compare x y = .eq ∨ compare y z = .eq) :
    compare x z = (compare x y).then (compare y z) := by
  rcases h with hsame | hfirst | hsecond
  · rw [← hsame]
    cases hxy : compare x y with
    | lt => exact Std.TransCmp.lt_trans hxy (hsame.symm.trans hxy)
    | eq => exact Std.TransCmp.eq_trans hxy (hsame.symm.trans hxy)
    | gt => exact Std.TransCmp.gt_trans hxy (hsame.symm.trans hxy)
  · rw [hfirst, Ordering.eq_then]
    exact Std.TransCmp.congr_left hfirst
  · rw [hsecond, Ordering.then_eq]
    exact (Std.TransCmp.congr_right hsecond).symm

namespace Json

/-- The kinds of values that have an order. -/
inductive Kind where
  | text
  | number
  deriving DecidableEq

/-- The kind of a value that has an order. A boolean counts as a number. -/
def kind? : Json → Option Kind
  | .str _ => some .text
  | .bool _ | .int _ | .float _ => some .number
  | .null | .arr _ | .obj _ => none

variable {a b c : Json}

/-- The texts are the values of one kind. -/
theorem kind?_eq_text_iff : a.kind? = some .text ↔ ∃ text, a = .str text := by
  cases a <;> simp [kind?]

/-- What has a value as a number is of the other kind. -/
theorem kind?_eq_number_iff : a.kind? = some .number ↔ ∃ x, a.asNumber? = some x := by
  cases a with
  | bool value => cases value <;> simp [kind?, asNumber?]
  | null | int value | float value | str value | arr value | obj value => simp [kind?, asNumber?]

/-- The order of two values is that of two texts, or that of two numbers. -/
theorem compareValues?_eq_some_iff {order : Ordering} :
    a.compareValues? b = some order ↔
      (∃ s t, a = .str s ∧ b = .str t ∧ compare s t = order) ∨
        ∃ x y, a.asNumber? = some x ∧ b.asNumber? = some y ∧ compare x.key y.key = order := by
  rcases texts_or_not a b with ⟨s, t, rfl, rfl⟩ | htexts
  · simp [compareValues?, asNumber?]
  · rw [compareValues?_of_not_texts htexts]
    constructor
    · intro h
      obtain ⟨x, hx, h⟩ := Option.bind_eq_some_iff.mp h
      obtain ⟨y, hy, horder⟩ := Option.map_eq_some_iff.mp h
      exact .inr ⟨x, y, hx, hy, horder⟩
    · rintro (⟨s, t, rfl, rfl, -⟩ | ⟨x, y, hx, hy, horder⟩)
      · simp [asString?] at htexts
      · rw [hx, hy, Option.bind_some, Option.map_some, horder]

/-- Two values have an order exactly if they are of one kind. -/
theorem isSome_compareValues?_iff :
    (a.compareValues? b).isSome = true ↔ ∃ kind, a.kind? = some kind ∧ b.kind? = some kind := by
  rw [Option.isSome_iff_exists]
  constructor
  · rintro ⟨order, h⟩
    rcases compareValues?_eq_some_iff.mp h with ⟨s, t, rfl, rfl, -⟩ | ⟨x, y, hx, hy, -⟩
    · exact ⟨.text, rfl, rfl⟩
    · exact ⟨.number, kind?_eq_number_iff.mpr ⟨x, hx⟩, kind?_eq_number_iff.mpr ⟨y, hy⟩⟩
  · rintro ⟨kind, ha, hb⟩
    cases kind with
    | text =>
      obtain ⟨s, rfl⟩ := kind?_eq_text_iff.mp ha
      obtain ⟨t, rfl⟩ := kind?_eq_text_iff.mp hb
      exact ⟨compare s t, rfl⟩
    | number =>
      obtain ⟨x, hx⟩ := kind?_eq_number_iff.mp ha
      obtain ⟨y, hy⟩ := kind?_eq_number_iff.mp hb
      exact ⟨_, compareValues?_eq_some_iff.mpr (.inr ⟨x, y, hx, hy, rfl⟩)⟩

/-- Two orders can be joined, unless they are opposite. -/
theorem compareValues?_trans {first second : Ordering} (hab : a.compareValues? b = some first)
    (hbc : b.compareValues? c = some second) (h : first = second ∨ first = .eq ∨ second = .eq) :
    a.compareValues? c = some (first.then second) := by
  rcases compareValues?_eq_some_iff.mp hab with ⟨s, t, rfl, rfl, rfl⟩ | ⟨x, y, hx, hy, rfl⟩
  · rcases compareValues?_eq_some_iff.mp hbc with ⟨_, u, ⟨⟩, rfl, rfl⟩ | ⟨_, _, hnumber, -⟩
    · exact congrArg some (compare_eq_then h)
    · cases hnumber
  · rcases compareValues?_eq_some_iff.mp hbc with ⟨_, _, rfl, -⟩ | ⟨y', z, hy', hz, rfl⟩
    · cases hy
    · obtain rfl : y = y' := Option.some.inj (hy.symm.trans hy')
      exact compareValues?_eq_some_iff.mpr (.inr ⟨x, z, hx, hz, compare_eq_then h⟩)

/-- Values that have an order are equal exactly if they are level in it. -/
theorem equals_iff_of_compareValues? {order : Ordering} (h : a.compareValues? b = some order) :
    a.equals b = true ↔ order = .eq := by
  rcases compareValues?_eq_some_iff.mp h with ⟨s, t, rfl, rfl, rfl⟩ | ⟨x, y, hx, hy, rfl⟩
  · rw [Std.compare_eq_iff_eq]
    simp [equals, isNull, asNumber?, same]
  · rw [Std.compare_eq_iff_eq, equals_of_number hx]
    simp [hy]

/-- Equality of column values is an equivalence of the values that are not null, and null equals nothing. Their order
turns around with the values, is known exactly for values of one kind, and can be told across a value in between unless
this one is above both or below both; two values are level in it exactly if they have an order and are equal. -/
theorem compares_lawfully (a b c : Json) :
    ((a.isNull = false → a.equals a = true) ∧ a.equals b = b.equals a ∧
        (a.equals b = true → b.equals c = true → a.equals c = true) ∧
        (a.isNull = true ∨ b.isNull = true → a.equals b = false)) ∧
      b.compareValues? a = (a.compareValues? b).map Ordering.swap ∧
      ((a.compareValues? b).isSome = true ↔ ∃ kind, a.kind? = some kind ∧ b.kind? = some kind) ∧
      (∀ first second, a.compareValues? b = some first → b.compareValues? c = some second →
        first = second ∨ first = .eq ∨ second = .eq → a.compareValues? c = some (first.then second)) ∧
      (a.compareValues? b = some .eq ↔ (a.compareValues? b).isSome = true ∧ a.equals b = true) := by
  refine ⟨⟨equals_refl, ?_, equals_trans, ?_⟩, compareValues?_swap a b, isSome_compareValues?_iff,
    fun _ _ => compareValues?_trans, ?_⟩
  · exact Bool.eq_iff_iff.mpr ⟨equals_symm, equals_symm⟩
  · rintro (ha | hb)
    · exact equals_of_isNull ha b
    · exact equals_null hb
  · cases h : a.compareValues? b with
    | none => simp
    | some order => simp [equals_iff_of_compareValues? h]

end Json

end SchemaQuery
