import SchemaQuery.Proofs.Calendar.Instants
import SchemaQuery.Proofs.Rows.Conformity
import SchemaQuery.Proofs.Schema.Coercion

/-!
# Coercing a row again

A row that is saved is coerced once more, and what it holds has been coerced before. Texts, numbers, truth values
and values without a type are their own forms. The text of an instant is its own form as long as the year has four
digits; with any other year it has no form, and the value is dropped. So coercion is idempotent for a model and a
document exactly if no date of the document lies beyond those years.
-/

namespace SchemaQuery

namespace PropertyType

/-- Whether the form that a value has in a type is read again: of a date, whether its year has four digits. -/
def readsBack : PropertyType → Json → Bool
  | .date, value => (instantOf? value).all fun t => 0 ≤ t.year ∧ t.year ≤ 9999
  | .string, _ | .number, _ | .boolean, _ | .unknown, _ => true

/-- The instant that a value means lies within its day. -/
theorem withinDay_of_instantOf? {value : Json} {t : Calendar.Instant} (h : instantOf? value = some t) :
    t.WithinDay := by
  unfold instantOf? at h
  split at h
  · exact Calendar.Instant.withinDay_of_ofText? h
  · obtain ⟨millis, -, hmillis⟩ := Option.bind_eq_some_iff.mp h
    exact Calendar.Instant.withinDay_of_ofMillis? hmillis

/-- A number is its own form. -/
theorem coerce?_number_of_isForm {form : Json} (h : IsForm .number form) :
    PropertyType.number.coerce? form = some form := by
  obtain ⟨n, rfl⟩ | ⟨x, rfl⟩ := h <;> rfl

/-- The form of a value is its own form if it is read again, and has none otherwise. -/
theorem coerce?_of_coerce? {kind : PropertyType} {value form : Json} (h : kind.coerce? value = some form) :
    kind.coerce? form = if kind.readsBack value then some form else none := by
  cases kind with
  | string =>
    obtain rfl := Option.some.inj h
    rfl
  | number => exact coerce?_number_of_isForm (isForm_of_coerce? h)
  | boolean =>
    obtain rfl := Option.some.inj h
    rfl
  | unknown => rfl
  | date =>
    obtain ⟨t, ht, rfl⟩ := Option.map_eq_some_iff.mp h
    have hread : date.readsBack value = true ↔ 0 ≤ t.year ∧ t.year ≤ 9999 := by simp [readsBack, ht]
    have hagain : date.coerce? (.str t.toText) =
        (Calendar.Instant.ofText? t.toText).map fun t => .str t.toText := rfl
    rw [hagain, Calendar.Instant.ofText?_toText (withinDay_of_instantOf? ht)]
    by_cases hyear : 0 ≤ t.year ∧ t.year ≤ 9999
    · rw [if_pos hyear, if_pos (hread.mpr hyear), Option.map_some, Calendar.Instant.toText_cut]
    · rw [if_neg hyear, if_neg (mt hread.mp hyear), Option.map_none]

/-- A value without a form in a type has none that is not read again. -/
theorem readsBack_of_coerce?_eq_none {kind : PropertyType} {value : Json} (h : kind.coerce? value = none) :
    kind.readsBack value = true := by
  cases kind with
  | date => rw [readsBack, Option.map_eq_none_iff.mp h, Option.all_none]
  | string | number | boolean | unknown => rfl

/-- The form of a value is null for no value but null. -/
theorem ne_null_of_coerce? {kind : PropertyType} {value form : Json} (h : kind.coerce? value = some form)
    (hvalue : value ≠ .null) : form ≠ .null := by
  rintro rfl
  cases kind with
  | unknown => exact hvalue (Option.some.inj h)
  | string | number | boolean | date => simpa [IsForm] using isForm_of_coerce? h

end PropertyType

namespace Property

variable (p : Property)

/-- A value but null becomes its form. -/
theorem coerce_of_ne_null {value : Json} (h : value ≠ .null) :
    p.coerce (some value) =
      match p.kind.coerce? value with
      | some form => .kept form
      | none => .dropped ("cannot convert " ++ value.compact ++ " to " ++ p.kind.name) := by
  cases value with
  | null => exact absurd rfl h
  | bool | int | float | str | arr | obj => rfl

/-- What becomes of what has been kept of a property of a document: it is kept again if it is read again. -/
theorem coerce_kept? (found : Option Json) :
    (p.coerce (p.coerce found).kept?).kept? =
        (if found.all p.kind.readsBack then (p.coerce found).kept? else none) ∧
      ((p.coerce (p.coerce found).kept?).dropped? = none ↔ found.all p.kind.readsBack = true) := by
  cases found with
  | none => exact ⟨rfl, iff_of_true rfl rfl⟩
  | some value =>
    simp only [Option.all_some]
    by_cases hnull : value = .null
    · subst hnull
      have hread : p.kind.readsBack .null = true := by cases p.kind <;> rfl
      cases hrequired : p.required <;> simp [coerce, hrequired, Coerced.kept?, Coerced.dropped?, hread]
    · rw [p.coerce_of_ne_null hnull]
      cases hform : p.kind.coerce? value with
      | none =>
        have hread := PropertyType.readsBack_of_coerce?_eq_none hform
        exact ⟨by rw [if_pos hread]; rfl, iff_of_true rfl hread⟩
      | some form =>
        have hagain := PropertyType.coerce?_of_coerce? hform
        simp only [Coerced.kept?]
        rw [p.coerce_of_ne_null (PropertyType.ne_null_of_coerce? hform hnull), hagain]
        by_cases hread : p.kind.readsBack value = true
        · rw [if_pos hread]
          exact ⟨rfl, iff_of_true rfl hread⟩
        · rw [if_neg hread]
          exact ⟨rfl, iff_of_false (Option.some_ne_none _) hread⟩

end Property

namespace Model

variable (model : Model) (doc : Members)

/-- What is kept of a property when a coerced document is coerced comes from what has been kept of it before. -/
theorem get?_coerce_of_mem {name : String} {p : Property} (h : (name, p) ∈ model.properties.entries) :
    (model.coerce doc).value.get? name = (p.coerce (doc.get? name)).kept? := by
  rw [model.get?_coerce, Dictionary.get?_eq_some_iff.mpr h, Option.bind_some]

/-- Coercing again what has been coerced gives the same row and says nothing if and only if every date of the
document has a year of four digits. -/
theorem coerce_coerce_iff :
    model.coerce (model.coerce doc).value = .silent (model.coerce doc).value ↔
      ∀ name, ∀ p ∈ model.properties.get? name, ∀ value ∈ doc.get? name, p.kind.readsBack value = true := by
  constructor
  · intro h name p hp value hvalue
    have hmem := Dictionary.get?_eq_some_iff.mp hp
    have hsignals := congrArg Reported.signals h
    rw [model.signals_coerce] at hsignals
    have hnone := Option.map_eq_none_iff.mp (List.filterMap_eq_nil_iff.mp hsignals (name, p) hmem)
    rw [model.get?_coerce_of_mem doc hmem, (p.coerce_kept? _).2, hvalue] at hnone
    exact hnone
  · intro h
    have hread {name : String} {p : Property} (hmem : (name, p) ∈ model.properties.entries) :
        (doc.get? name).all p.kind.readsBack = true :=
      (Option.all_eq_true ..).mpr (h name p (Dictionary.get?_eq_some_iff.mpr hmem))
    have hvalue : (model.coerce (model.coerce doc).value).value = (model.coerce doc).value := by
      rw [model.value_coerce, model.value_coerce doc]
      refine List.filterMap_congr fun ⟨name, p⟩ hmem => ?_
      rw [← model.value_coerce, model.get?_coerce_of_mem doc hmem, (p.coerce_kept? _).1, if_pos (hread hmem)]
    have hsignals : (model.coerce (model.coerce doc).value).signals = [] := by
      rw [model.signals_coerce]
      refine List.filterMap_eq_nil_iff.mpr fun ⟨name, p⟩ hmem => ?_
      rw [model.get?_coerce_of_mem doc hmem, (p.coerce_kept? _).2.mpr (hread hmem), Option.map_none]
    calc model.coerce (model.coerce doc).value
      _ = ⟨(model.coerce (model.coerce doc).value).value, (model.coerce (model.coerce doc).value).signals⟩ := rfl
      _ = .silent (model.coerce doc).value := by rw [hvalue, hsignals, Reported.silent]

/-- A date of the year 10000: its text is kept when the document is coerced, and dropped with a warning when the row
is coerced again. -/
theorem coerce_drops_distant_date :
    let event : Model := ⟨"Event", "event", .ofList [("at", ⟨"Date", .date, false, none⟩)], .empty⟩
    let row := (event.coerce [("at", .ofNat 253402300800000)]).value
    (Json.obj row).same (.obj [("at", .str "+10000-01-01T00:00:00.000Z")]) = true ∧
      (event.coerce row).value = [] ∧ (event.coerce row).signals.length = 1 := by
  decide +kernel

end Model

end SchemaQuery
