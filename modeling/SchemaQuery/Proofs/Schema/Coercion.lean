import Mathlib.Data.List.Basic
import SchemaQuery.Proofs.Basic
import SchemaQuery.Schema.Coercion

/-!
# Coerced documents, column by column

A coerced document has under the name of a property what is kept of the property, and nothing under other names.
-/

namespace SchemaQuery

namespace Coerced

/-- The value that is kept of a property, if one is. -/
def kept? : Coerced → Option Json
  | .kept value => some value
  | .absent | .dropped _ => none

/-- Why a value is dropped, if one is. -/
def dropped? : Coerced → Option String
  | .dropped reason => some reason
  | .absent | .kept _ => none

end Coerced

/-- A name that is less than all others is not found among them. -/
theorem Dictionary.find?_of_forall_lt {α : Type} {name : String} {entries : List (String × α)}
    (h : ∀ entry ∈ entries, name < entry.1) : (entries.find? fun entry => entry.1 = name) = none :=
  List.find?_eq_none.mpr fun entry hentry heq =>
    String.lt_irrefl name (by simpa [of_decide_eq_true heq] using h entry hentry)

/-- Of members made of a dictionary, with at most one for each entry and of its name, a name is answered by what
its entry gives. -/
theorem Dictionary.get?_filterMap {α : Type} (d : Dictionary α) (f : String → α → Option Json) (name : String) :
    Members.get? (d.entries.filterMap fun entry => (f entry.1 entry.2).map (entry.1, ·)) name =
      (d.get? name).bind (f name) := by
  obtain ⟨entries, hsorted⟩ := d
  change _ = ((entries.find? fun entry => entry.1 = name).map Prod.snd).bind (f name)
  induction entries with
  | nil => rfl
  | cons entry rest ih =>
    obtain ⟨other, value⟩ := entry
    obtain ⟨hhead, hrest⟩ := List.pairwise_cons.mp hsorted
    rw [List.filterMap_cons]
    by_cases hname : other = name
    · subst hname
      rw [List.find?_cons_of_pos (by simp)]
      cases hvalue : f other value with
      | some result => simp [hvalue, Members.get?]
      | none =>
        -- The later entries have greater names.
        simp [hvalue, ih hrest, find?_of_forall_lt hhead]
    · rw [List.find?_cons_of_neg (by simpa using hname), ← ih hrest]
      cases f other value <;> simp [Members.get?, hname]

namespace Model

variable (model : Model) (doc : Members)

/-- The warning about a value that is dropped. -/
def droppedValue (name reason : String) : Signal :=
  .event .propertyCoercion [("model", model.name), ("property", name), ("reason", reason)]

/-- A coerced document has the values that are kept of its properties. -/
theorem value_coerce :
    (model.coerce doc).value = model.properties.entries.filterMap fun entry =>
      (entry.2.coerce (doc.get? entry.1)).kept?.map (entry.1, ·) := by
  simp only [coerce, coercions, List.filterMap_map]
  refine List.filterMap_congr fun entry _ => ?_
  simp only [Function.comp_apply]
  cases entry.2.coerce (doc.get? entry.1) <;> rfl

/-- There is a warning about each value that is dropped. -/
theorem signals_coerce :
    (model.coerce doc).signals = model.properties.entries.filterMap fun entry =>
      (entry.2.coerce (doc.get? entry.1)).dropped?.map (model.droppedValue entry.1) := by
  simp only [coerce, coercions, List.filterMap_map]
  refine List.filterMap_congr fun entry _ => ?_
  simp only [Function.comp_apply]
  cases entry.2.coerce (doc.get? entry.1) <;> rfl

/-- A document is coerced by what it says of the declared properties alone. -/
theorem coerce_congr {doc other : Members}
    (h : ∀ name, (model.properties.get? name).isSome = true → doc.get? name = other.get? name) :
    model.coerce doc = model.coerce other := by
  have hcoercions : model.coercions doc = model.coercions other := by
    refine List.map_congr_left fun entry hentry => ?_
    rw [h entry.1 (by rw [Dictionary.get?_eq_some_iff.mpr hentry]; rfl)]
  rw [coerce, coerce, hcoercions]

/-- What is kept of a document under a name is what is kept of the property of the name. -/
theorem get?_coerce (name : String) :
    (model.coerce doc).value.get? name =
      (model.properties.get? name).bind fun p => (p.coerce (doc.get? name)).kept? := by
  rw [value_coerce, ← Dictionary.get?_filterMap model.properties fun name p => (p.coerce (doc.get? name)).kept?]

end Model

end SchemaQuery
