import Mathlib.Data.List.Nodup
import SchemaQuery.Diagnostics.Sink
import SchemaQuery.Proofs.Json.WrittenTexts
import SchemaQuery.Proofs.Storage.Order

/-!
# Log lines

A log line is a JSON object on a line of its own, whatever texts it is made of: what users choose, the names of their
models or the text of a statement, neither breaks the line nor replaces the event or the severity. It is read back as
these two and the details behind them, by name, each with the text that was given last. Details with distinct names
may be given in any order.
-/

namespace SchemaQuery

namespace Members

/-! ## Members in the order of their names -/

/-- Behind members of other names a name is given its value. -/
theorem insert_append_of_not_mem {m n : Members} {name : String} (value : Json) (h : name ∉ m.names) :
    (m ++ n : Members).insert name value = m ++ n.insert name value := by
  induction m with
  | nil => rfl
  | cons entry rest ih =>
    simp only [names, List.map_cons, List.mem_cons, not_or] at h
    rw [List.cons_append, insert, if_neg (Ne.symm h.1), ih h.2, List.cons_append]

/-- Behind members of other names a row is extended. -/
theorem extend_append_of_disjoint {m n more : Members} (h : ∀ name ∈ more.names, name ∉ m.names) :
    (m ++ n : Members).extend more = m ++ n.extend more := by
  induction more generalizing n with
  | nil => rfl
  | cons entry rest ih =>
    simp only [names, List.map_cons, List.forall_mem_cons] at h
    have hrest := ih (n := n.insert entry.1 entry.2) h.2
    rw [← insert_append_of_not_mem entry.2 h.1] at hrest
    exact hrest

/-- A name that is present keeps its place. -/
theorem names_insert_of_mem {m : Members} {name : String} (value : Json) (h : name ∈ m.names) :
    (m.insert name value).names = m.names := by
  induction m with
  | nil => cases h
  | cons entry rest ih =>
    obtain ⟨other, old⟩ := entry
    by_cases hname : other = name
    · rw [insert, if_pos hname]
      rfl
    · have hrest : name ∈ names rest := (List.mem_cons.mp h).resolve_left (Ne.symm hname)
      rw [insert, if_neg hname]
      exact congrArg (other :: ·) (ih hrest)

/-- A row in the order of its names stays so when it is extended, in that order, by names that do not come before
its own. -/
theorem sorted_extend {m more : Members} (hm : m.names.Pairwise (· < ·)) (hmore : more.names.Pairwise (· ≤ ·))
    (h : ∀ a ∈ m.names, ∀ b ∈ more.names, a ≤ b) : (m.extend more).names.Pairwise (· < ·) := by
  induction more generalizing m with
  | nil => exact hm
  | cons entry rest ih =>
    obtain ⟨name, value⟩ := entry
    obtain ⟨hfirst, hrest⟩ := List.pairwise_cons.mp hmore
    have hlater : ∀ b ∈ names rest, name ≤ b := hfirst
    refine ih (m := m.insert name value) ?_ hrest fun a ha b hb => ?_
    · by_cases hname : name ∈ m.names
      · rwa [names_insert_of_mem value hname]
      · rw [insert_of_not_mem value hname, names, List.map_append]
        refine List.pairwise_append.mpr ⟨hm, List.pairwise_singleton _ _, fun a ha b hb => ?_⟩
        have hne : a ≠ name := fun heq => hname (heq ▸ ha)
        rw [List.mem_singleton.mp hb]
        exact Std.lt_of_le_of_ne (h a ha name List.mem_cons_self) hne
    · obtain rfl | hmem := mem_names_insert.mp ha
      · exact hlater b hb
      · exact h a hmem b (List.mem_cons_of_mem _ hb)

/-- Of a row extended by members, the last of a name answers first. -/
theorem get?_extend_last (m more : Members) (name : String) :
    (m.extend more).get? name =
      ((more.filter fun entry => entry.1 = name).getLast?.map Prod.snd).or (m.get? name) := by
  induction more generalizing m with
  | nil => rfl
  | cons entry rest ih =>
    have hrest := ih (m.insert entry.1 entry.2)
    rw [get?_insert] at hrest
    refine hrest.trans ?_
    by_cases hname : entry.1 = name
    · rw [if_pos hname, List.filter_cons_of_pos (by simpa using hname), List.getLast?_cons]
      cases List.getLast? (List.filter (fun entry => entry.1 = name) rest) <;> rfl
    · rw [if_neg hname, List.filter_cons_of_neg (by simpa using hname)]

/-- Members whose values are all texts are named texts. -/
theorem exists_ofTexts {m : Members} (h : ∀ entry ∈ m, ∃ text, entry.2 = .str text) : ∃ texts, m = ofTexts texts := by
  induction m with
  | nil => exact ⟨[], rfl⟩
  | cons entry rest ih =>
    obtain ⟨hentry, hrest⟩ := List.forall_mem_cons.mp h
    obtain ⟨text, htext⟩ := hentry
    obtain ⟨texts, rfl⟩ := ih hrest
    exact ⟨(entry.1, text) :: texts, by rw [ofTexts, ofTexts, List.map_cons, ← htext]⟩

end Members

/-! ## The details of a line -/

namespace Details

/-- The text that is given last for a name. -/
def lastOf (name : String) (details : Details) : Option String :=
  (details.filter fun d => d.1 = name).getLast?.map Prod.snd

/-- Whether members are those of some details: they come by name, no name twice, each with the text that was given
last, and none is called like the event or the severity. -/
structure ShownAs (details : Details) (fields : Members) : Prop where
  ascending : fields.names.Pairwise (· < ·)
  value : ∀ name, fields.get? name =
    if name = "event" ∨ name = "severity" then none else (details.lastOf name).map .str

end Details

/-- Details are compared by their names. -/
theorem detailBefore_iff {a b : String × String} : detailBefore a b = true ↔ a.1 ≤ b.1 :=
  decide_eq_true_iff

/-- The order of details is transitive. -/
theorem detailBefore_trans (a b c : String × String) (hab : detailBefore a b = true) (hbc : detailBefore b c = true) :
    detailBefore a c = true :=
  detailBefore_iff.mpr (String.le_trans (detailBefore_iff.mp hab) (detailBefore_iff.mp hbc))

/-- Of two details one comes first. -/
theorem detailBefore_total (a b : String × String) : (detailBefore a b || detailBefore b a) = true := by
  rw [Bool.or_eq_true, detailBefore_iff, detailBefore_iff]
  exact String.le_total a.1 b.1

variable (details : Details)

/-- The details that a line shows, by name. -/
def shownDetails : Details :=
  (details.mergeSort detailBefore).filter fun d => d.1 ≠ "event" ∧ d.1 ≠ "severity"

/-- The members of a line behind the event and the severity. -/
def detailMembers : Members :=
  Members.extend [] (Members.ofTexts (shownDetails details))

/-- Sorted details have their names in order. -/
theorem sorted_names_shownDetails : (Members.names (Members.ofTexts (shownDetails details))).Pairwise (· ≤ ·) := by
  have hsorted := List.pairwise_mergeSort detailBefore_trans detailBefore_total details
  rw [Members.names, Members.ofTexts, List.map_map, List.pairwise_map]
  exact (hsorted.filter _).imp detailBefore_iff.mp

/-- Details of one name are shown in the order in which they are given. -/
theorem filter_shownDetails (name : String) :
    ((shownDetails details).filter fun d => d.1 = name) =
      if name = "event" ∨ name = "severity" then [] else details.filter fun d => d.1 = name := by
  rw [shownDetails, List.filter_filter]
  split
  · next hreserved =>
    refine List.filter_eq_nil_iff.mpr fun d _ => ?_
    rw [Bool.and_eq_true, decide_eq_true_iff, decide_eq_true_iff]
    rintro ⟨rfl, hevent, hseverity⟩
    exact hreserved.elim hevent hseverity
  · next hfree =>
    have htest : ∀ d ∈ details.mergeSort detailBefore,
        (decide (d.1 = name) && decide (d.1 ≠ "event" ∧ d.1 ≠ "severity")) = decide (d.1 = name) := by
      intro d _
      by_cases hname : d.1 = name
      · simpa [hname] using hfree
      · simp [hname]
    rw [List.filter_congr htest, filter_mergeSort detailBefore_trans detailBefore_total]
    refine List.mergeSort_of_pairwise (List.pairwise_of_forall_mem_list fun a ha b hb => detailBefore_iff.mpr ?_)
    have hsame : a.1 = b.1 :=
      (of_decide_eq_true (List.mem_filter.mp ha).2).trans (of_decide_eq_true (List.mem_filter.mp hb).2).symm
    exact hsame ▸ String.le_refl a.1

/-- The members of a line are those of its details. -/
theorem shownAs_detailMembers : details.ShownAs (detailMembers details) where
  ascending := Members.sorted_extend .nil (sorted_names_shownDetails details) fun _ h => absurd h List.not_mem_nil
  value name := by
    have hlast : ((Members.ofTexts (shownDetails details)).filter fun entry => entry.1 = name).getLast?.map Prod.snd =
        ((shownDetails details).filter fun d => d.1 = name).getLast?.map fun d => .str d.2 := by
      rw [Members.ofTexts, List.filter_map, List.getLast?_map, Option.map_map]
      rfl
    rw [detailMembers, Members.get?_extend_last, hlast, filter_shownDetails, Members.get?, Option.or_none]
    split
    · rfl
    · rw [Details.lastOf, Option.map_map]
      rfl

variable (severity : Severity) (event : String)

/-- The members of a line: the event, the severity, and the details. -/
def lineMembers : Members :=
  ("event", .str event) :: ("severity", .str severity.name) :: detailMembers details

/-- A line is the object of its members. -/
theorem logLine_eq :
    logLine severity event details = (Json.obj (lineMembers details severity event)).compact ++ "\n" := by
  have hnames : ∀ name ∈ Members.names (Members.ofTexts (shownDetails details)),
      name ∉ Members.names [("event", .str event), ("severity", .str severity.name)] := by
    intro name hname
    rw [Members.names, Members.ofTexts, List.map_map] at hname
    obtain ⟨d, hd, rfl⟩ := List.mem_map.mp hname
    simpa [Members.names, shownDetails] using (List.mem_filter.mp hd).2
  have hextend := Members.extend_append_of_disjoint (n := []) hnames
  rw [List.append_nil] at hextend
  rw [logLine]
  exact congrArg (fun members => (Json.obj members).compact ++ "\n") hextend

/-- The members of a line are texts with distinct names. -/
theorem exists_lineTexts :
    ∃ texts, lineMembers details severity event = Members.ofTexts texts ∧ (texts.map Prod.fst).Nodup := by
  have hshown := shownAs_detailMembers details
  have htexts : ∀ entry ∈ detailMembers details, ∃ text, entry.2 = .str text := by
    intro entry hentry
    obtain hnone | hmem := Members.mem_extend hentry
    · cases hnone
    · obtain ⟨d, -, rfl⟩ := List.mem_map.mp hmem
      exact ⟨d.2, rfl⟩
  obtain ⟨texts, htexts⟩ := Members.exists_ofTexts htexts
  refine ⟨("event", event) :: ("severity", severity.name) :: texts, by rw [lineMembers, htexts]; rfl, ?_⟩
  have hnames : texts.map Prod.fst = Members.names (detailMembers details) := by
    rw [htexts, Members.names, Members.ofTexts, List.map_map]
    rfl
  have hfree (name : String) (hname : name = "event" ∨ name = "severity") : name ∉ texts.map Prod.fst := by
    intro hmem
    obtain ⟨value, hvalue⟩ := Members.exists_get?_of_mem (hnames ▸ hmem)
    rw [hshown.value, if_pos hname] at hvalue
    cases hvalue
  simp only [List.map_cons, List.nodup_cons, List.mem_cons, not_or]
  refine ⟨⟨by decide, hfree "event" (Or.inl rfl)⟩, hfree "severity" (Or.inr rfl), ?_⟩
  rw [hnames]
  exact hshown.ascending.imp String.ne_of_lt

variable {details} in
/-- Details with distinct names are sorted into one order, however they are given. -/
theorem mergeSort_eq_of_perm {other : Details} (hnames : (details.map Prod.fst).Nodup) (h : details.Perm other) :
    other.mergeSort detailBefore = details.mergeSort detailBefore := by
  have hsorted (l : Details) : (l.mergeSort detailBefore).Pairwise fun a b => detailBefore a b = true :=
    List.pairwise_mergeSort detailBefore_trans detailBefore_total l
  have hperm : (other.mergeSort detailBefore).Perm (details.mergeSort detailBefore) :=
    (List.mergeSort_perm ..).trans (h.symm.trans (List.mergeSort_perm ..).symm)
  refine List.Perm.eq_of_pairwise (fun a b ha hb hab hba => ?_) (hsorted other) (hsorted details) hperm
  have hmem {d : String × String} (hd : d ∈ details.mergeSort detailBefore) : d ∈ details :=
    (List.mergeSort_perm ..).mem_iff.mp hd
  have hname : a.1 = b.1 := String.le_antisymm (detailBefore_iff.mp hab) (detailBefore_iff.mp hba)
  exact List.inj_on_of_nodup_map hnames (hmem (hperm.mem_iff.mp ha)) (hmem hb) hname

/-- A log line is one line, whatever texts it is made of. It is read back as the event and the severity and, behind
them and by name, the details that are called otherwise, each with the text given last. Details with distinct names
make the same line in every order. -/
theorem logLine_intact :
    ∃ body fields, logLine severity event details = body ++ "\n" ∧ '\n' ∉ body.toList ∧
      Json.ofText? body = some (.obj (("event", .str event) :: ("severity", .str severity.name) :: fields)) ∧
      details.ShownAs fields ∧
      ((details.map Prod.fst).Nodup → ∀ other, details.Perm other →
        logLine severity event other = logLine severity event details) := by
  obtain ⟨texts, htexts, hdistinct⟩ := exists_lineTexts details severity event
  refine ⟨(Json.obj (lineMembers details severity event)).compact, detailMembers details,
    logLine_eq details severity event, ?_, ?_, shownAs_detailMembers details, fun hnames other hperm => ?_⟩
  · intro hmem
    rw [htexts] at hmem
    exact absurd (Json.le_toNat_of_mem_compact_ofTexts texts _ hmem) (by decide)
  · have hread := Json.ofText?_compact_ofTexts hdistinct
    rw [← htexts] at hread
    exact hread
  · rw [logLine, logLine, mergeSort_eq_of_perm hnames hperm]

/-- A warning with quotes and a line break in its event, and with a detail that is called like the severity. -/
theorem logLine_intact_warning :
    let event := "He said \"no\"\n"
    let details : Details := [("table", "a\\b"), ("severity", "INFO"), ("model", "\x01")]
    let sorted : Details := [("model", "\x01"), ("severity", "INFO"), ("table", "a\\b")]
    (details.map Prod.fst).Nodup ∧ details.Perm sorted ∧
      logLine .warn event sorted = logLine .warn event details ∧
      logLine .warn event sorted = "\x7b\"event\":\"He said \\\"no\\\"\\n\",\"severity\":\"WARN\"," ++
        "\"model\":\"\\u0001\",\"table\":\"a\\\\b\"\x7d\n" := by
  intro event details sorted
  have hnames : (details.map Prod.fst).Nodup := by decide
  have hperm : details.Perm sorted := by decide
  obtain ⟨body, fields, -, -, -, -, horder⟩ := logLine_intact details .warn event
  refine ⟨hnames, hperm, horder hnames sorted hperm, ?_⟩
  rw [logLine, List.mergeSort_of_pairwise (by decide +kernel)]
  decide +kernel

end SchemaQuery
