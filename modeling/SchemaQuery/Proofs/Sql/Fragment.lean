import SchemaQuery.Proofs.Json.Equality
import SchemaQuery.Sql.Fragment

/-!
# Cutting SQL text from the front

A quoted name and a row of placeholders can be cut off the front of a text in one way only, whatever stands
behind them. A name may hold quotes, dots, question marks and words of SQL: a quote inside it is written
twice and a dot stands between quotes, so the quote that ends the name is the first one that is followed by
neither.
-/

namespace SchemaQuery

namespace Fragment

/-- Whether two fragments are the same: one text, and the same values in the same places. -/
def Same (a b : Fragment) : Prop :=
  a.text = b.text ∧ sameItems a.bindings b.bindings = true

/-- Fragments one after another can be bracketed at will. -/
theorem append_assoc (a b c : Fragment) : a ++ b ++ c = a ++ (b ++ c) := by
  change Fragment.mk (a.text ++ b.text ++ c.text) (a.bindings ++ b.bindings ++ c.bindings) = _
  rw [String.append_assoc, List.append_assoc]
  rfl

/-- Nothing behind a fragment is no change. -/
theorem append_ofText_empty (a : Fragment) : a ++ ofText "" = a := by
  change Fragment.mk (a.text ++ "") (a.bindings ++ []) = a
  rw [String.append_empty, List.append_nil]

/-- The characters of fragments that are the same, with others in front. -/
theorem Same.toList_text {a b rest rest' : Fragment} (h : (a ++ rest).Same (b ++ rest')) :
    a.text.toList ++ rest.text.toList = b.text.toList ++ rest'.text.toList := by
  simpa using congrArg String.toList h.1

/-- Text in front of two fragments makes no difference. -/
theorem same_ofText_append {text : String} {a b : Fragment} :
    (ofText text ++ a).Same (ofText text ++ b) ↔ a.Same b := by
  refine and_congr ?_ Iff.rfl
  rw [← String.toList_inj, ← String.toList_inj]
  simp [ofText]

end Fragment

namespace Sql

/-- Whether a text that stands behind a quoted name leaves the end of the name where it is. -/
def EndsName (rest : List Char) : Prop :=
  ∀ c ∈ rest.head?, c ≠ '"' ∧ c ≠ '.'

/-- The written form of a character can be cut off the front of a text in one way only. -/
theorem quoteChar_append_inj {c d : Char} {rest rest' : List Char}
    (h : quoteChar c ++ rest = quoteChar d ++ rest') : c = d ∧ rest = rest' := by
  unfold quoteChar at h
  split at h <;> split at h <;> grind

/-- No character of a name is written as the end of the name. -/
theorem quoteChar_append_ne {c : Char} {rest rest' : List Char} (hrest : EndsName rest) :
    quoteChar c ++ rest' ≠ '"' :: rest := by
  intro h
  unfold quoteChar at h
  split at h
  · obtain ⟨-, rfl⟩ := List.cons.inj h
    exact (hrest '.' rfl).2 rfl
  · split at h
    · obtain ⟨-, rfl⟩ := List.cons.inj h
      exact (hrest '"' rfl).1 rfl
    · next hquote => exact hquote (List.cons.inj h).1

/-- The characters of a name, up to the quote that ends it, can be cut off in one way only. -/
theorem quoteChars_append_inj {cs ds rest rest' : List Char} (hrest : EndsName rest)
    (hrest' : EndsName rest')
    (h : cs.flatMap quoteChar ++ '"' :: rest = ds.flatMap quoteChar ++ '"' :: rest') :
    cs = ds ∧ rest = rest' := by
  induction cs generalizing ds with
  | nil =>
    cases ds with
    | nil => exact ⟨rfl, (List.cons.inj h).2⟩
    | cons d others =>
      rw [List.flatMap_cons, List.append_assoc] at h
      exact absurd h.symm (quoteChar_append_ne hrest)
  | cons c others ih =>
    rw [List.flatMap_cons, List.append_assoc] at h
    cases ds with
    | nil => exact absurd h (quoteChar_append_ne hrest')
    | cons d others' =>
      rw [List.flatMap_cons, List.append_assoc] at h
      obtain ⟨rfl, hothers⟩ := quoteChar_append_inj h
      obtain ⟨rfl, hends⟩ := ih hothers
      exact ⟨rfl, hends⟩

/-- A quoted name can be cut off the front of a text in one way only. -/
theorem quoteName_append_inj {a b : String} {rest rest' : List Char} (hrest : EndsName rest)
    (hrest' : EndsName rest')
    (h : (quoteName a).toList ++ rest = (quoteName b).toList ++ rest') : a = b ∧ rest = rest' := by
  simp only [quoteName, String.toList_ofList, List.append_assoc, List.cons_append, List.nil_append,
    List.cons.injEq, true_and] at h
  obtain ⟨hnames, hends⟩ := quoteChars_append_inj hrest hrest' h
  exact ⟨String.toList_inj.mp hnames, hends⟩

/-- A quoted name begins with a quote. -/
theorem head?_quoteName_append (name : String) (rest : List Char) :
    ((quoteName name).toList ++ rest).head? = some '"' := by
  simp [quoteName]

/-- Of two placeholders or more, the first is followed by a comma. -/
theorem toList_placeholders_cons (value next : Json) (more : List Json) :
    (placeholders (value :: next :: more)).toList =
      '?' :: ',' :: ' ' :: (placeholders (next :: more)).toList := by
  simp [placeholders, join]

/-- Placeholders up to the bracket that closes them can be cut off in one way only. -/
theorem placeholders_append_inj {values others : List Json} {rest rest' : List Char}
    (hvalues : values ≠ []) (hothers : others ≠ [])
    (h : (placeholders values).toList ++ ')' :: rest = (placeholders others).toList ++ ')' :: rest') :
    values.length = others.length ∧ rest = rest' := by
  have hsingle (value : Json) : (placeholders [value]).toList = ['?'] := by simp [placeholders, join]
  match values, others with
  | [_], [_] => simpa [hsingle] using h
  | [_], _ :: _ :: _ => simp [hsingle, toList_placeholders_cons] at h
  | _ :: _ :: _, [_] => simp [hsingle, toList_placeholders_cons] at h
  | _ :: next :: more, _ :: next' :: more' =>
    simp only [toList_placeholders_cons, List.cons_append, List.cons.injEq, true_and] at h
    obtain ⟨hlength, hends⟩ :=
      placeholders_append_inj (List.cons_ne_nil next more) (List.cons_ne_nil next' more') h
    exact ⟨congrArg Nat.succ hlength, hends⟩

end Sql

end SchemaQuery
