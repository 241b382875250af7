import SchemaQuery.Proofs.Calendar.Chronology
import SchemaQuery.Proofs.Filter.Meaning
import SchemaQuery.Proofs.Filter.WholeNumbers
import SchemaQuery.Proofs.Rows.Recoercion
import SchemaQuery.Proofs.Storage.Sorting

/-!
# Stored dates

A whole number in a date column is stored as the text of the instant that is so many milliseconds away from 1970. Of
the years 0 to 9999 these texts are in the order of time: they compare as the milliseconds do, so that an operator of
a filter holds of a stored date just when the milliseconds are so to each other, and sorting by the column is sorting
by time.
-/

namespace SchemaQuery

open Calendar.Instant (HasFourDigitYear)

/-- Whether a value is what a date column stores of a number of milliseconds in the years 0 to 9999. -/
structure Json.IsDate (value : Json) (m : Int) : Prop where
  year : HasFourDigitYear m
  stored : PropertyType.date.coerce? (.ofInt m) = some value

/-- Whether a value of a date column is the date at a time, or null where there is no time. -/
def Json.ShowsTime (value : Json) : Option Int → Prop
  | none => value.isNull = true
  | some m => value.IsDate m

/-- Whether a column of dates goes with the times of its rows: an operator of a filter that compares it with a date
holds of the rows with a time that is so to the time of the date, and rows are sorted by it as by their times, those
without a time first. -/
structure Table.FollowsTime (column : String) (time : Row → Option Int) (rows : List Row) (date : Json) (n : Int) :
    Prop where
  filter : ∀ {tag op}, (tag, op) ∈ Comparison.tags → op ≠ .like → op ≠ .oneOf →
    Filter.isDisjunctionKey column = false →
    ∃ tree, Filter.compile [(column, .obj [(tag, date)])] = .ok tree ∧
      ∀ row ∈ rows, (Clause.ofPredicate tree).holds row = true ↔ ∃ m ∈ time row, op.OfWholes m n
  ascending : sortRows [⟨column, .asc⟩] rows = rows.mergeSort fun a b => (compare (time a) (time b)).isLE
  descending : sortRows [⟨column, .desc⟩] rows = rows.mergeSort fun a b => (compare (time b) (time a)).isLE

/-! ## Texts of dates -/

/-- Milliseconds of the years 0 to 9999 are the instant that they mean in a date column. -/
theorem PropertyType.instantOf?_ofInt {m : Int} (hm : HasFourDigitYear m) :
    instantOf? (.ofInt m) = Calendar.Instant.ofMillis? m := by
  obtain ⟨hlower, hupper⟩ := (Calendar.Instant.hasFourDigitYear_iff m).mp hm
  have hwhole : Whole.least ≤ m ∧ m ≤ Whole.greatest := by
    unfold Whole.least Whole.greatest
    omega
  have hsmall : min m (Whole.signedLimit - 1) = m := by
    unfold Whole.signedLimit
    omega
  rw [Json.ofInt, dif_pos hwhole]
  simp only [instantOf?, millisOf?, hsmall, Option.bind_some]

/-- A date column stores a text of every number of milliseconds in the years 0 to 9999. -/
theorem Json.exists_isDate {m : Int} (hm : HasFourDigitYear m) : ∃ text : String, (Json.str text).IsDate m := by
  obtain ⟨t, ht, hyear⟩ := id hm
  exact ⟨t.toText, hm, by rw [PropertyType.coerce?, PropertyType.instantOf?_ofInt hm, ht, Option.map_some]⟩

namespace Json.IsDate

variable {a b : Json} {m n : Int}

/-- A stored date is the text of the instant of its milliseconds. -/
theorem exists_instant (ha : a.IsDate m) : ∃ t : Calendar.Instant, t.Plain ∧ t.millis = m ∧ a = .str t.toText := by
  obtain ⟨t, ht, hyear⟩ := ha.year
  have hstored := ha.stored
  rw [PropertyType.coerce?, PropertyType.instantOf?_ofInt ha.year, ht, Option.map_some] at hstored
  obtain ⟨hplain, hmillis⟩ := Calendar.Instant.plain_of_ofMillis? ht hyear
  exact ⟨t, hplain, hmillis, (Option.some.inj hstored).symm⟩

/-- A stored date is not null. -/
theorem isNull (ha : a.IsDate m) : a.isNull = false := by
  obtain ⟨t, -, -, rfl⟩ := ha.exists_instant
  rfl

/-- A stored date is kept when it is coerced again. -/
theorem coerce? (ha : a.IsDate m) : PropertyType.date.coerce? a = some a := by
  have hread : PropertyType.date.readsBack (.ofInt m) = true := by
    obtain ⟨t, ht, hyear⟩ := ha.year
    rw [PropertyType.readsBack, PropertyType.instantOf?_ofInt ha.year, ht, Option.all_some, decide_eq_true hyear]
  rw [PropertyType.coerce?_of_coerce? ha.stored, if_pos hread]

/-- Stored dates compare as their milliseconds. -/
theorem compareValues? (ha : a.IsDate m) (hb : b.IsDate n) : a.compareValues? b = some (compare m n) := by
  obtain ⟨t, ht, rfl, rfl⟩ := ha.exists_instant
  obtain ⟨u, hu, rfl, rfl⟩ := hb.exists_instant
  exact congrArg some (Calendar.Instant.compare_toText ht hu)

/-- Stored dates are the same text just when their milliseconds are the same. -/
theorem eq_iff (ha : a.IsDate m) (hb : b.IsDate n) : a = b ↔ m = n := by
  obtain ⟨t, ht, rfl, rfl⟩ := ha.exists_instant
  obtain ⟨u, hu, rfl, rfl⟩ := hb.exists_instant
  rw [Json.str.injEq, ← compare_eq_iff_eq, Calendar.Instant.compare_toText ht hu, compare_eq_iff_eq]

/-- Stored dates are equal just when their milliseconds are the same. -/
theorem equals_iff (ha : a.IsDate m) (hb : b.IsDate n) : a.equals b = true ↔ m = n := by
  rw [← ha.eq_iff hb]
  obtain ⟨t, -, -, rfl⟩ := ha.exists_instant
  obtain ⟨u, -, -, rfl⟩ := hb.exists_instant
  rw [Json.equals_of_not_number rfl]
  simp [Json.same, Json.isNull]

end Json.IsDate

/-! ## Filters and order -/

/-- A condition that compares a column of dates with a date holds of the times that are so to the time of the date. -/
theorem Condition.holds_iff_showsTime {c : Condition} {row : Row} {time : Option Int} {n : Int} {tag : String}
    (hrow : (row.getD c.field).ShowsTime time) (hdate : c.operand.IsDate n) (htag : (tag, c.op) ∈ Comparison.tags)
    (hlike : c.op ≠ .like) (hlist : c.op ≠ .oneOf) : c.holds row = true ↔ ∃ m ∈ time, c.op.OfWholes m n := by
  cases time with
  | none => simp [holds_of_isNull row hrow htag]
  | some m =>
    have hholds := holds_iff_of_compare hrow.isNull hdate.isNull (hrow.equals_iff hdate) (hrow.compareValues? hdate)
      rfl rfl hlike hlist
    simpa using hholds

namespace Table

/-- Values of a date column stand to each other as their times. -/
theorem compareColumn_showsTime {a b : Json} {time other : Option Int} (ha : a.ShowsTime time)
    (hb : b.ShowsTime other) : compareColumn a b = compare time other := by
  match time, other with
  | none, none => rw [compareColumn, ha, hb]; rfl
  | none, some n => rw [compareColumn, ha, hb.isNull]; rfl
  | some m, none => rw [compareColumn, ha.isNull, hb]; rfl
  | some m, some n => rw [compareColumn, ha.isNull, hb.isNull, ha.compareValues? hb]; rfl

/-- A column of dates goes with the times of its rows. -/
theorem followsTime {column : String} {time : Row → Option Int} {rows : List Row}
    (h : ∀ row ∈ rows, (row.getD column).ShowsTime (time row)) {date : Json} {n : Int} (hdate : date.IsDate n) :
    FollowsTime column time rows date n where
  filter := by
    intro tag op htag hlike hlist hcolumn
    have hcondition : Filter.compileOperator column tag op date = .ok ⟨column, op, date⟩ := by
      obtain ⟨t, -, -, rfl⟩ := hdate.exists_instant
      cases op with
      | oneOf => exact absurd rfl hlist
      | _ => rfl
    obtain ⟨tree, htree, hholds⟩ := Filter.compile_operator hcolumn htag hcondition
    refine ⟨tree, htree, fun row hrow => ?_⟩
    rw [hholds]
    exact Condition.holds_iff_showsTime (h row hrow) hdate htag hlike hlist
  ascending := sortRows_of_compareEntry fun a ha b hb => compareColumn_showsTime (h a ha) (h b hb)
  descending := sortRows_of_compareEntry fun a ha b hb => by
    rw [compareEntry, ← compareColumn_swap]
    exact compareColumn_showsTime (h b hb) (h a ha)

end Table

/-- Dates of the years 0 to 9999 are stored in the order of time: the texts that a date column stores of whole numbers
of milliseconds compare as the numbers, are the same for the same number only and are kept when they are coerced again.
So the operators of filters and the sorting of a column of dates go with time. -/
theorem PropertyType.date_chronological {m n : Int} (hm : HasFourDigitYear m) (hn : HasFourDigitYear n) :
    ∃ a b : String, date.coerce? (.ofInt m) = some (.str a) ∧ date.coerce? (.ofInt n) = some (.str b) ∧
      (Json.str a).compareValues? (.str b) = some (compare m n) ∧ (a = b ↔ m = n) ∧
      date.coerce? (.str a) = some (.str a) ∧
      ∀ (column : String) (time : Row → Option Int) (rows : List Row),
        (∀ row ∈ rows, (row.getD column).ShowsTime (time row)) → Table.FollowsTime column time rows (.str b) n := by
  obtain ⟨a, ha⟩ := Json.exists_isDate hm
  obtain ⟨b, hb⟩ := Json.exists_isDate hn
  exact ⟨a, b, ha.stored, hb.stored, ha.compareValues? hb, by simpa using ha.eq_iff hb, ha.coerce?,
    fun column time rows h => Table.followsTime h hb⟩

/-- The last millisecond before 1970 and a leap day, beside a row without a date. -/
theorem PropertyType.date_chronological_leapDay :
    let evening : Json := .str "1969-12-31T23:59:59.999Z"
    let leapDay : Json := .str "2000-02-29T00:00:00.000Z"
    let rows : List Row := [[("at", leapDay)], [], [("at", evening)]]
    let time (row : Row) : Option Int :=
      (row.get? "at").map fun value => if value.same evening then -1 else 951782400000
    HasFourDigitYear (-1) ∧ HasFourDigitYear 951782400000 ∧
      date.coerce? (.ofInt (-1)) = some evening ∧ date.coerce? (.ofInt 951782400000) = some leapDay ∧
      evening.compareValues? leapDay = some .lt ∧ date.coerce? evening = some evening ∧
      (∀ row ∈ rows, (row.getD "at").ShowsTime (time row)) ∧
      Table.FollowsTime "at" time rows leapDay 951782400000 := by
  intro evening leapDay rows time
  have hevening : HasFourDigitYear (-1) := (Calendar.Instant.hasFourDigitYear_iff _).mpr (by decide)
  have hleapDay : HasFourDigitYear 951782400000 := (Calendar.Instant.hasFourDigitYear_iff _).mpr (by decide)
  have hstored : date.coerce? (.ofInt (-1)) = some evening := by rfl
  have hstored' : date.coerce? (.ofInt 951782400000) = some leapDay := by rfl
  obtain ⟨a, b, ha, hb, hcompare, -, hagain, hcolumn⟩ := date_chronological hevening hleapDay
  obtain rfl := Json.str.inj (Option.some.inj (hstored.symm.trans ha))
  obtain rfl := Json.str.inj (Option.some.inj (hstored'.symm.trans hb))
  have hrows : ∀ row ∈ rows, (row.getD "at").ShowsTime (time row) := by
    simp only [rows, List.forall_mem_cons]
    exact ⟨⟨hleapDay, hstored'⟩, rfl, ⟨hevening, hstored⟩, by simp⟩
  exact ⟨hevening, hleapDay, hstored, hstored', hcompare, hagain, hrows, hcolumn "at" time rows hrows⟩

end SchemaQuery
