import Mathlib.Data.List.Forall2
import SchemaQuery.Database
import SchemaQuery.Proofs.Basic
import SchemaQuery.Proofs.Query.Merging
import SchemaQuery.Proofs.Storage.Steps

/-!
# Asking for relations in several calls

What is read inside of a bracket is what would be read by itself, so a list of expressions denotes the merged
forest of what its members denote. A request collects the forests of several calls without merging them. The
two agree when no two calls name a relation in common; when they do, the later call loads the relation anew,
without what the earlier one asked for below it.
-/

namespace SchemaQuery

namespace Populate

/-! ## Runs of the reader -/

/-- The reader after some characters. -/
def run : List Char → State → Option State
  | [], state => some state
  | c :: rest, state => (step c state).bind (run rest)

/-- Characters one after another. -/
theorem run_append (left right : List Char) (state : State) :
    run (left ++ right) state = (run left state).bind (run right) := by
  induction left generalizing state with
  | nil => rfl
  | cons c rest ih =>
    simp only [List.cons_append, run]
    cases step c state with
    | none => rfl
    | some next => exact ih next

/-- Behind complete relations, a comma begins the next list of a bracket, and the bracket's end completes it. -/
theorem stepAfter_cases {c : Char} {state next : State} (h : stepAfter c state = some next) :
    ∃ done before frames, state = .after done (.bracket before :: frames) ∧
      (c = ',' ∧ next = .start (.bracket (before ++ done) :: frames) ∨
        c = ']' ∧ next = complete (before ++ done) frames) := by
  revert h
  fun_cases stepAfter c state with
  | case1 done before frames hcomma =>
    rintro ⟨⟩
    exact ⟨done, before, frames, rfl, .inl ⟨hcomma, rfl⟩⟩
  | case2 done before frames _ hclose =>
    rintro ⟨⟩
    exact ⟨done, before, frames, rfl, .inr ⟨hclose, rfl⟩⟩
  | case3 | case4 => rintro ⟨⟩

/-- Whether characters are an expression that denotes a forest. -/
def Denotes (cs : List Char) (forest : List PopulateNode) : Prop :=
  ∃ last, run cs (.start []) = some last ∧ finish last = some forest

/-- Reading succeeds with the forest that a run ends with. -/
theorem readFrom_eq_ok_iff {cs : List Char} {offset : Nat} {state : State} {forest : List PopulateNode} :
    readFrom cs offset state = .ok forest ↔ ∃ last, run cs state = some last ∧ finish last = some forest := by
  induction cs generalizing offset state with
  | nil =>
    simp only [readFrom, run, Option.some.injEq, exists_eq_left']
    cases finish state <;> simp
  | cons c rest ih =>
    simp only [readFrom, run]
    cases step c state with
    | none => simp
    | some next => exact ih

/-! ## Reading inside of a bracket -/

/-- A state with more frames around it. -/
def State.under (around : List Frame) : State → State
  | .start frames => .start (frames ++ around)
  | .word read frames => .word read (frames ++ around)
  | .after done frames => .after done (frames ++ around)

section Around

variable {before : List PopulateNode} {frames : List Frame}

/-- Names that wait for relations do not reach beyond a bracket. -/
theorem complete_under (done : List PopulateNode) (inner : List Frame) :
    complete done (inner ++ .bracket before :: frames) =
      (complete done inner).under (.bracket before :: frames) := by
  induction inner generalizing done with
  | nil => rfl
  | cons frame rest ih =>
    cases frame with
    | bracket => rfl
    | dot name => exact ih [.node name done]

/-- Behind complete relations a character does inside of a bracket what it does outside. -/
theorem stepAfter_under {c : Char} {state next : State} (h : stepAfter c state = some next) :
    stepAfter c (state.under (.bracket before :: frames)) =
      some (next.under (.bracket before :: frames)) := by
  obtain ⟨done, old, rest, rfl, ⟨rfl, rfl⟩ | ⟨rfl, rfl⟩⟩ := stepAfter_cases h
  · rfl
  · rw [← complete_under]
    rfl

/-- A character that can be read is read inside of a bracket. -/
theorem step_under {c : Char} {state next : State} (h : step c state = some next) :
    step c (state.under (.bracket before :: frames)) = some (next.under (.bracket before :: frames)) := by
  cases state with
  | start inner =>
    by_cases hopen : c = '['
    · simp only [step, if_pos hopen, Option.some.injEq] at h
      simp only [step, State.under, if_pos hopen, ← h, List.cons_append]
    · by_cases hname : isNameChar c
      · simp only [step, if_neg hopen, if_pos hname, Option.some.injEq] at h
        simp only [step, State.under, if_neg hopen, if_pos hname, ← h]
      · simp [step, hopen, hname] at h
  | word read inner =>
    by_cases hname : isNameChar c
    · simp only [step, if_pos hname, Option.some.injEq] at h
      simp only [step, State.under, if_pos hname, ← h]
    · by_cases hdot : c = '.'
      · simp only [step, if_neg hname, if_pos hdot, Option.some.injEq] at h
        simp only [step, State.under, if_neg hname, if_pos hdot, ← h, List.cons_append]
      · simp only [step, if_neg hname, if_neg hdot] at h
        have hafter := (stepAfter_under h : stepAfter c (State.under (.bracket before :: frames) _) = _)
        rw [← complete_under] at hafter
        simpa only [step, State.under, if_neg hname, if_neg hdot] using hafter
  | after done inner => exact stepAfter_under h

/-- Characters that can be read are read inside of a bracket. -/
theorem run_under {cs : List Char} {state last : State} (h : run cs state = some last) :
    run cs (state.under (.bracket before :: frames)) = some (last.under (.bracket before :: frames)) := by
  induction cs generalizing state with
  | nil =>
    obtain rfl : state = last := Option.some.inj h
    rfl
  | cons c rest ih =>
    obtain ⟨next, hstep, hrun⟩ := Option.bind_eq_some_iff.mp h
    rw [run, step_under hstep]
    exact ih hrun

/-- Where an expression can end, a comma or a closing bracket finds its relations complete. -/
theorem step_of_finish {c : Char} (hc : isNameChar c = false) (hdot : c ≠ '.') {last : State}
    {forest : List PopulateNode} (h : finish last = some forest) :
    step c (last.under (.bracket before :: frames)) =
      stepAfter c (.after forest (.bracket before :: frames)) := by
  cases last with
  | start => cases h
  | word read inner =>
    have hcomplete : complete [.node (String.ofList read.reverse) []] inner = .after forest [] := by
      simp only [finish] at h
      split at h
      · rename_i done hdone
        rw [hdone, Option.some.inj h]
      · cases h
    simp [step, State.under, hc, hdot, complete_under, hcomplete]
  | after done inner =>
    cases inner with
    | nil =>
      obtain rfl : done = forest := Option.some.inj h
      rfl
    | cons => cases h

/-- An expression inside of a bracket leaves its relations behind. -/
theorem run_denotes {cs : List Char} {forest : List PopulateNode} (h : Denotes cs forest) {c : Char}
    (hc : isNameChar c = false) (hdot : c ≠ '.') (rest : List Char) :
    run (cs ++ c :: rest) (.start (.bracket before :: frames)) =
      (stepAfter c (.after forest (.bracket before :: frames))).bind (run rest) := by
  obtain ⟨last, hrun, hfinish⟩ := h
  have hunder : run cs (.start (.bracket before :: frames)) =
      some (last.under (.bracket before :: frames)) := run_under hrun
  rw [run_append, hunder, Option.bind_some, run, step_of_finish hc hdot hfinish]

end Around

/-! ## Lists of expressions -/

/-- The characters of a text that count. -/
def compact (text : String) : List Char :=
  text.toList.filter fun c => !Text.isBlank c

/-- The characters of texts one after another. -/
theorem compact_append (a b : String) : compact (a ++ b) = compact a ++ compact b := by
  rw [compact, String.toList_append, List.filter_append]
  rfl

/-- An expression is parsed to the merged forest that it denotes. -/
theorem parse_eq_ok_iff {p : Populate} {nodes : List PopulateNode} :
    p.parse = .ok nodes ↔
      ∃ forest, Denotes (compact p.toExpression) forest ∧ PopulateNode.merge forest = nodes := by
  have hread (forest : List PopulateNode) :
      Denotes (compact p.toExpression) forest ↔
        readFrom (compact p.toExpression) 0 (.start []) = .ok forest := readFrom_eq_ok_iff.symm
  simp only [hread]
  rw [parse, compact]
  cases readFrom (p.toExpression.toList.filter fun c => !Text.isBlank c) 0 (.start []) <;> simp

/-- Expressions with commas between them leave the relations of all of them behind. -/
theorem run_items {items : List Populate} {forests : List (List PopulateNode)}
    (h : items.Forall₂ (fun p forest => Denotes (compact p.toExpression) forest) forests)
    (hne : items ≠ []) (before : List PopulateNode) (frames : List Frame) :
    run (compact (Sql.join "," (expressionsOf items)) ++ [']']) (.start (.bracket before :: frames)) =
      some (complete (before ++ forests.flatten) frames) := by
  induction h generalizing before with
  | nil => exact absurd rfl hne
  | @cons p forest items forests hp hrest ih =>
    cases items with
    | nil =>
      cases hrest
      rw [expressionsOf, expressionsOf, Sql.join, run_denotes hp rfl (by decide), List.flatten_singleton]
      rfl
    | cons next others =>
      have hjoin : compact (Sql.join "," (expressionsOf (p :: next :: others))) =
          compact p.toExpression ++ ',' :: compact (Sql.join "," (expressionsOf (next :: others))) := by
        simp only [expressionsOf, Sql.join, compact_append]
        rw [List.append_assoc]
        rfl
      rw [hjoin, List.append_assoc, List.cons_append, run_denotes hp rfl (by decide)]
      have htail := ih (List.cons_ne_nil _ _) (before ++ forest)
      rw [List.append_assoc, ← List.flatten_cons] at htail
      exact htail

/-- A list denotes what its members denote, one after another. -/
theorem denotes_list {items : List Populate} {forests : List (List PopulateNode)}
    (h : items.Forall₂ (fun p forest => Denotes (compact p.toExpression) forest) forests) (hne : items ≠ []) :
    Denotes (compact (list items).toExpression) forests.flatten := by
  have hcompact : compact (list items).toExpression =
      '[' :: (compact (Sql.join "," (expressionsOf items)) ++ [']']) := by
    simp only [toExpression, compact_append]
    rfl
  refine ⟨.after forests.flatten [], ?_, rfl⟩
  rw [hcompact]
  exact run_items h hne [] []

/-- A list is parsed to the merged forest of what its members are parsed to. -/
theorem parse_list {items : List Populate} {forests : List (List PopulateNode)}
    (h : items.Forall₂ (fun p nodes => p.parse = .ok nodes) forests) (hne : items ≠ []) :
    (list items).parse = .ok (PopulateNode.merge forests.flatten) := by
  -- The reader collects what the members denote before any of it is merged.
  obtain ⟨raw, hraw, hmerged⟩ : ∃ raw,
      items.Forall₂ (fun p forest => Denotes (compact p.toExpression) forest) raw ∧
        raw.map PopulateNode.merge = forests := by
    clear hne
    induction h with
    | nil => exact ⟨[], .nil, rfl⟩
    | cons hp _ ih =>
      obtain ⟨forest, hforest, hnodes⟩ := parse_eq_ok_iff.mp hp
      obtain ⟨raw, hraw, hmerged⟩ := ih
      exact ⟨forest :: raw, .cons hforest hraw, by rw [List.map_cons, hnodes, hmerged]⟩
  refine parse_eq_ok_iff.mpr ⟨raw.flatten, denotes_list hraw hne, ?_⟩
  rw [← hmerged, PopulateNode.merge_flatten_map_merge]

/-- What is parsed is merged. -/
theorem allMerged_of_parse {p : Populate} {nodes : List PopulateNode} (h : p.parse = .ok nodes) :
    PopulateNode.AllMerged nodes := by
  obtain ⟨forest, -, rfl⟩ := parse_eq_ok_iff.mp h
  exact PopulateNode.allMerged_merge forest

end Populate

/-! ## Calls -/

namespace Request

/-- A call asks for what it is parsed to, behind what was asked for before. -/
theorem addPopulate_of_parse {r : Request} (hkind : r.kind = .select) {p : Populate} {nodes : List PopulateNode}
    (h : p.parse = .ok nodes) : r.addPopulate p = .ok { r with populate := r.populate ++ nodes } := by
  simp [addPopulate, hkind, h, Except.map]

/-- Two calls ask for what they are parsed to, one after the other. -/
theorem addPopulate_bind_of_parse {r : Request} (hkind : r.kind = .select) {a b : Populate}
    {first second : List PopulateNode} (ha : a.parse = .ok first) (hb : b.parse = .ok second) :
    (r.addPopulate a >>= (·.addPopulate b)) = .ok { r with populate := r.populate ++ (first ++ second) } := by
  have hsecond := addPopulate_of_parse (r := { r with populate := r.populate ++ first }) hkind hb
  rw [List.append_assoc] at hsecond
  exact bind_eq_ok_iff.mpr ⟨_, addPopulate_of_parse hkind ha, hsecond⟩

/-- Two calls that name no relation in common ask for the relations of both, one after the other, and so does
one call with a list of the two. -/
theorem addPopulate_twice {r : Request} (hkind : r.kind = .select) {a b : Populate}
    {first second : List PopulateNode} (ha : a.parse = .ok first) (hb : b.parse = .ok second)
    (hnew : ∀ n ∈ second, n.name ∉ first.map PopulateNode.name) :
    let asked : Request := { r with populate := r.populate ++ (first ++ second) }
    (r.addPopulate a >>= (·.addPopulate b)) = .ok asked ∧ r.addPopulate (.list [a, b]) = .ok asked := by
  intro asked
  have hlist : (Populate.list [a, b]).parse = .ok (first ++ second) := by
    rw [Populate.parse_list (.cons ha (.cons hb .nil)) (List.cons_ne_nil _ _), List.flatten_cons,
      List.flatten_singleton, PopulateNode.merge_append_of_disjoint (Populate.allMerged_of_parse ha)
        (Populate.allMerged_of_parse hb) hnew]
  exact ⟨addPopulate_bind_of_parse hkind ha hb, addPopulate_of_parse hkind hlist⟩

/-- Books and their editors in one call and the address in another. -/
theorem addPopulate_twice_apart :
    let author : Model := ⟨"Author", "author", .empty, .empty⟩
    let r := Request.ofKind author .select defaultPageLimit
    let books : Populate := .expression "books.[author, editor]"
    let address : Populate := .nested "address" (.expression "city")
    let first : List PopulateNode := [.node "books" [.node "author" [], .node "editor" []]]
    let second : List PopulateNode := [.node "address" [.node "city" []]]
    let asked : Request := { r with populate := first ++ second }
    r.kind = .select ∧ books.parse = .ok first ∧ address.parse = .ok second ∧
      (∀ n ∈ second, n.name ∉ first.map PopulateNode.name) ∧
      (r.addPopulate books >>= (·.addPopulate address)) = .ok asked ∧
      r.addPopulate (.list [books, address]) = .ok asked := by
  intro author r books address first second asked
  have hbooks : books.parse = .ok first := by decide +kernel
  have haddress : address.parse = .ok second := by decide +kernel
  have hnew : ∀ n ∈ second, n.name ∉ first.map PopulateNode.name := by decide
  exact ⟨rfl, hbooks, haddress, hnew, addPopulate_twice rfl hbooks haddress hnew⟩

end Request

/-- A call for books after one for books with their authors loads the books anew, without the authors that
one call with both loads. -/
theorem Database.run_loses_earlier_call :
    let author : Model := ⟨"Author", "author", .empty, .empty⟩
    let book : Model := ⟨"Book", "book", .empty, .empty⟩
    let authors : Model :=
      { author with relations := .ofList [("books", .between .hasMany "books" author book "author_id")] }
    let books : Model :=
      { book with relations := .ofList [("author", .between .belongsTo "author" book author "author_id")] }
    let store := (Store.ofTables ["author", "book"]).run
      [.insert "author" [("name", .str "Austen")],
        .insert "book" [("title", .str "Emma"), ("author_id", .ofNat 1)]]
    let db : Database := ⟨⟨.ofList [("Author", authors), ("Book", books)], .empty, .empty⟩, store, default⟩
    let r := db.request authors .select
    let austen : Row := [("id", .ofNat 1), ("name", .str "Austen")]
    let emma : Row := [("id", .ofNat 1), ("title", .str "Emma"), ("author_id", .ofNat 1)]
    let authored : Row := emma ++ [("author", .obj austen)]
    let apart : Request :=
      { r with populate := [.node "books" [.node "author" []], .node "books" []] }
    let together : Request := { r with populate := [.node "books" [.node "author" []]] }
    let gives (asked : Request) (rows : List Row) : Bool :=
      (db.run asked).result.toOption.any fun output => output.toJson.same (Output.rowsToJson rows)
    (r.addPopulate (.expression "books.author") >>= (·.addPopulate (.expression "books"))) = .ok apart ∧
      r.addPopulate (.list [.expression "books.author", .expression "books"]) = .ok together ∧
      gives apart [austen ++ [("books", .arr [.obj emma])]] = true ∧
      gives together [austen ++ [("books", .arr [.obj authored])]] = true ∧
      gives apart [austen ++ [("books", .arr [.obj authored])]] = false := by
  intro author book authors books store db r austen emma authored apart together gives
  have hauthored : (Populate.expression "books.author").parse = .ok [.node "books" [.node "author" []]] := by
    decide +kernel
  have hbooks : (Populate.expression "books").parse = .ok [.node "books" []] := by decide +kernel
  have hlist : (Populate.list [.expression "books.author", .expression "books"]).parse =
      .ok [.node "books" [.node "author" []]] := by
    decide +kernel
  exact ⟨Request.addPopulate_bind_of_parse rfl hauthored hbooks, Request.addPopulate_of_parse rfl hlist,
    by decide +kernel, by decide +kernel, by decide +kernel⟩

end SchemaQuery
