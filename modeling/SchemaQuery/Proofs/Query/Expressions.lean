import Mathlib.Data.List.TakeWhile
import SchemaQuery.Proofs.Query.PopulateCalls

/-!
# The grammar of populate expressions

A list is an item, or lists in brackets with commas between them; an item is a name, with a dot and a list behind it
or not. The reader takes one character at a time and keeps what encloses it in frames. What a tree of the grammar
spells brings it from the start of a list to that list complete, whatever frames there are; conversely, what the frames
still wait for is a grammar of its own, and each character that is read takes a beginning off it.
-/

namespace SchemaQuery.Populate

/-! ## The grammar -/

/-- A character that names are made of. -/
def InNames (c : Char) : Prop :=
  ('A' ≤ c ∧ c ≤ 'Z') ∨ ('a' ≤ c ∧ c ≤ 'z') ∨ ('0' ≤ c ∧ c ≤ '9') ∨ c = '_' ∨ c = '$'

/-- A name of a relation. -/
structure Name where
  chars : List Char
  nonempty : chars ≠ []
  inNames : ∀ c ∈ chars, InNames c

mutual

/-- A tree for a list: an item, or lists in brackets. -/
inductive ListTree where
  | item (item : ItemTree)
  | bracket (first : ListTree) (others : List ListTree)

/-- A tree for an item: a name by itself, or with a list behind a dot. -/
inductive ItemTree where
  | bare (name : Name)
  | dotted (name : Name) (below : ListTree)

end

mutual

/-- The characters of a list. -/
def ListTree.text : ListTree → List Char
  | .item item => item.text
  | .bracket first others => '[' :: (first.text ++ (textOfOthers others ++ [']']))

/-- The characters of the lists behind the first one in a bracket. -/
def textOfOthers : List ListTree → List Char
  | [] => []
  | tree :: others => ',' :: (tree.text ++ textOfOthers others)

/-- The characters of an item. -/
def ItemTree.text : ItemTree → List Char
  | .bare name => name.chars
  | .dotted name below => name.chars ++ '.' :: below.text

end

mutual

/-- The relations that a list denotes. -/
def ListTree.forest : ListTree → List PopulateNode
  | .item item => [item.node]
  | .bracket first others => first.forest ++ forestOfOthers others

/-- The relations that lists denote, one after another. -/
def forestOfOthers : List ListTree → List PopulateNode
  | [] => []
  | tree :: others => tree.forest ++ forestOfOthers others

/-- The relation that an item denotes, with those of the list behind its dot below it. -/
def ItemTree.node : ItemTree → PopulateNode
  | .bare name => .node (String.ofList name.chars) []
  | .dotted name below => .node (String.ofList name.chars) below.forest

end

/-! ## Characters -/

/-- The characters of names are those that the reader takes into a word. -/
theorem isNameChar_iff {c : Char} : isNameChar c = true ↔ InNames c := by
  have hsplit : isNameChar c = (c.isUpper || c.isLower || c.isDigit || c = '_' || c = '$') := rfl
  have hupper : c.isUpper = true ↔ 'A' ≤ c ∧ c ≤ 'Z' := decide_eq_true_iff
  have hlower : c.isLower = true ↔ 'a' ≤ c ∧ c ≤ 'z' :=
    Bool.and_eq_true_iff.trans (and_congr decide_eq_true_iff decide_eq_true_iff)
  have hdigit : c.isDigit = true ↔ '0' ≤ c ∧ c ≤ '9' :=
    Bool.and_eq_true_iff.trans (and_congr decide_eq_true_iff decide_eq_true_iff)
  simp only [hsplit, Bool.or_eq_true, hupper, hlower, hdigit, decide_eq_true_eq, InNames, or_assoc]

/-- Whether a text ends here or goes on with what ends a list. -/
def Delimited (cs : List Char) : Prop :=
  ∀ c ∈ cs.head?, c = ',' ∨ c = ']'

theorem delimited_nil : Delimited [] := by
  simp [Delimited]

theorem delimited_others (others : List ListTree) (rest : List Char) :
    Delimited (textOfOthers others ++ ']' :: rest) := by
  cases others <;> simp [Delimited, textOfOthers]

/-! ## Reading what a tree spells -/

/-- The relations that characters lead to from a state. -/
def outcome (cs : List Char) (state : State) : Option (List PopulateNode) :=
  (run cs state).bind finish

theorem outcome_cons (c : Char) (cs : List Char) (state : State) :
    outcome (c :: cs) state = (step c state).bind (outcome cs) := by
  rw [outcome, run, Option.bind_assoc]
  rfl

/-- Complete relations are behind a list, whether names wait for them or not. -/
theorem exists_complete_eq_after (done : List PopulateNode) (frames : List Frame) :
    ∃ all outer, complete done frames = .after all outer := by
  induction frames generalizing done with
  | nil => exact ⟨done, [], rfl⟩
  | cons frame frames ih =>
    cases frame with
    | bracket before => exact ⟨done, .bracket before :: frames, rfl⟩
    | dot name => exact ih [.node name done]

/-- What ends a list ends the name before it. -/
theorem outcome_word {cs : List Char} (h : Delimited cs) (read : List Char) (frames : List Frame) :
    outcome cs (.word read frames) = outcome cs (complete [.node (String.ofList read.reverse) []] frames) := by
  obtain ⟨all, outer, hafter⟩ := exists_complete_eq_after [.node (String.ofList read.reverse) []] frames
  cases cs with
  | nil =>
    simp only [outcome, run, Option.bind_some, finish, hafter]
    cases outer <;> rfl
  | cons c cs =>
    have hc : isNameChar c = false ∧ c ≠ '.' := by
      rcases h c rfl with rfl | rfl <;> decide
    simp [outcome_cons, step, hc, hafter]

/-- The characters of a name are read into a word. -/
theorem outcome_word_append {chars : List Char} (h : ∀ c ∈ chars, InNames c) (cs read : List Char)
    (frames : List Frame) :
    outcome (chars ++ cs) (.word read frames) = outcome cs (.word (chars.reverse ++ read) frames) := by
  induction chars generalizing read with
  | nil => rfl
  | cons c chars ih =>
    obtain ⟨hc, hchars⟩ := List.forall_mem_cons.mp h
    rw [List.cons_append, outcome_cons, step, if_pos (isNameChar_iff.mpr hc), Option.bind_some, ih hchars]
    simp

/-- A name is read into a word. -/
theorem Name.outcome_append (name : Name) (cs : List Char) (frames : List Frame) :
    outcome (name.chars ++ cs) (.start frames) = outcome cs (.word name.chars.reverse frames) := by
  obtain ⟨_ | ⟨c, chars⟩, hne, hin⟩ := name
  · exact absurd rfl hne
  · obtain ⟨hc, hchars⟩ := List.forall_mem_cons.mp hin
    have hname : isNameChar c = true := isNameChar_iff.mpr hc
    have hopen : c ≠ '[' := by
      rintro rfl
      exact absurd hname (by decide)
    rw [List.cons_append, outcome_cons, step, if_neg hopen, if_pos hname, Option.bind_some,
      outcome_word_append hchars]
    simp

mutual

/-- What a list spells leads from its start to its relations complete. -/
theorem ListTree.outcome_text (tree : ListTree) {rest : List Char} (h : Delimited rest) (frames : List Frame) :
    outcome (tree.text ++ rest) (.start frames) = outcome rest (complete tree.forest frames) := by
  cases tree with
  | item item => exact item.outcome_text h frames
  | bracket first others =>
    have hopen : step '[' (.start frames) = some (.start (.bracket [] :: frames)) := rfl
    have htext : (ListTree.bracket first others).text ++ rest =
        '[' :: (first.text ++ (textOfOthers others ++ ']' :: rest)) := by simp [ListTree.text]
    rw [htext, outcome_cons, hopen, Option.bind_some, first.outcome_text (delimited_others others rest)]
    exact outcome_others others rest [] first.forest frames

/-- What the lists behind a complete one spell, with the bracket that closes, leads to the bracket's relations
complete. -/
theorem outcome_others (others : List ListTree) (rest : List Char) (before done : List PopulateNode)
    (frames : List Frame) :
    outcome (textOfOthers others ++ ']' :: rest) (.after done (.bracket before :: frames)) =
      outcome rest (complete (before ++ (done ++ forestOfOthers others)) frames) := by
  cases others with
  | nil =>
    simp [textOfOthers, forestOfOthers, outcome_cons, step, stepAfter]
  | cons tree others =>
    have hcomma : step ',' (.after done (.bracket before :: frames)) =
        some (.start (.bracket (before ++ done) :: frames)) := rfl
    have htext : textOfOthers (tree :: others) ++ ']' :: rest =
        ',' :: (tree.text ++ (textOfOthers others ++ ']' :: rest)) := by simp [textOfOthers]
    rw [htext, outcome_cons, hcomma, Option.bind_some, tree.outcome_text (delimited_others others rest)]
    refine (outcome_others others rest (before ++ done) tree.forest frames).trans ?_
    simp [forestOfOthers]

/-- What an item spells leads from its start to its relation complete. -/
theorem ItemTree.outcome_text (item : ItemTree) {rest : List Char} (h : Delimited rest) (frames : List Frame) :
    outcome (item.text ++ rest) (.start frames) = outcome rest (complete [item.node] frames) := by
  cases item with
  | bare name =>
    rw [ItemTree.text, name.outcome_append, outcome_word h, List.reverse_reverse]
    rfl
  | dotted name below =>
    have hdot : step '.' (.word name.chars.reverse frames) =
        some (.start (.dot (String.ofList name.chars) :: frames)) := by simp [step, isNameChar]
    have htext : (ItemTree.dotted name below).text ++ rest = name.chars ++ '.' :: (below.text ++ rest) := by
      simp [ItemTree.text]
    rw [htext, name.outcome_append, outcome_cons, hdot, Option.bind_some, below.outcome_text h]
    rfl

end

/-! ## What is read is spelled by a tree -/

/-- Whether characters finish what frames wait for around complete relations, so that a forest is complete at the
end. -/
def Closes : List Frame → List PopulateNode → List Char → List PopulateNode → Prop
  | [], done, cs, forest => cs = [] ∧ done = forest
  | .dot name :: frames, done, cs, forest => Closes frames [.node name done] cs forest
  | .bracket before :: frames, done, cs, forest =>
    ∃ others rest, cs = textOfOthers others ++ ']' :: rest ∧
      Closes frames (before ++ (done ++ forestOfOthers others)) rest forest

/-- Whether characters go on from a state so that a forest is complete at the end: with what a tree spells, and then
with what finishes the frames. -/
def State.Leads : State → List Char → List PopulateNode → Prop
  | .start frames, cs, forest =>
    ∃ (tree : ListTree) (rest : List Char), cs = tree.text ++ rest ∧ Closes frames tree.forest rest forest
  | .word read frames, cs, forest => ∀ name : Name, name.chars = read.reverse →
    ∃ (item : ItemTree) (rest : List Char), name.chars ++ cs = item.text ++ rest ∧ Closes frames [item.node] rest forest
  | .after done frames, cs, forest => Closes frames done cs forest

/-- Relations below names that wait for them lead where the names lead. -/
theorem leads_complete {done : List PopulateNode} {frames : List Frame} {cs : List Char}
    {forest : List PopulateNode} : (complete done frames).Leads cs forest ↔ Closes frames done cs forest := by
  induction frames generalizing done with
  | nil => rfl
  | cons frame frames ih =>
    cases frame with
    | bracket before => rfl
    | dot name => exact ih

/-- A character that is read behind complete relations is the first of what finishes the frames. -/
theorem leads_of_stepAfter {c : Char} {state next : State} {cs : List Char} {forest : List PopulateNode}
    (hstep : stepAfter c state = some next) (h : next.Leads cs forest) : state.Leads (c :: cs) forest := by
  obtain ⟨done, before, frames, rfl, ⟨rfl, rfl⟩ | ⟨rfl, rfl⟩⟩ := stepAfter_cases hstep
  · obtain ⟨tree, _, rfl, others, rest, rfl, hrest⟩ := h
    exact ⟨tree :: others, rest, by simp [textOfOthers], by simpa [forestOfOthers] using hrest⟩
  · exact ⟨[], cs, rfl, by simpa [forestOfOthers] using leads_complete.mp h⟩

/-- The name that a name and a character make. -/
def Name.snoc (name : Name) {c : Char} (h : InNames c) : Name where
  chars := name.chars ++ [c]
  nonempty := by simp
  inNames := by simpa [or_imp, forall_and] using ⟨name.inNames, h⟩

/-- The name that a character makes. -/
def Name.single {c : Char} (h : InNames c) : Name where
  chars := [c]
  nonempty := by simp
  inNames := by simpa using h

/-- A character that is read is the first of what a state leads on with. -/
theorem leads_of_step {c : Char} {state next : State} {cs : List Char} {forest : List PopulateNode}
    (hstep : step c state = some next) (h : next.Leads cs forest) : state.Leads (c :: cs) forest := by
  revert hstep
  fun_cases step c state with
  | case1 frames hopen =>
    rintro ⟨⟩
    obtain ⟨first, _, rfl, others, rest, rfl, hrest⟩ := h
    exact ⟨.bracket first others, rest, by simp [ListTree.text, hopen], hrest⟩
  | case2 frames hopen hname =>
    rintro ⟨⟩
    obtain ⟨item, rest, htext, hrest⟩ := h (.single (isNameChar_iff.mp hname)) rfl
    exact ⟨.item item, rest, htext, hrest⟩
  | case3 => rintro ⟨⟩
  | case4 read frames hname =>
    rintro ⟨⟩ name hchars
    obtain ⟨item, rest, htext, hrest⟩ := h (name.snoc (isNameChar_iff.mp hname)) (by simp [Name.snoc, hchars])
    exact ⟨item, rest, by simpa [Name.snoc] using htext, hrest⟩
  | case5 read frames hname hdot =>
    rintro ⟨⟩ name hchars
    obtain ⟨below, rest, rfl, hrest⟩ := h
    refine ⟨.dotted name below, rest, by simp [ItemTree.text, hdot], ?_⟩
    rw [← hchars] at hrest
    exact hrest
  | case6 read frames hname hdot =>
    intro hstep name hchars
    refine ⟨.bare name, c :: cs, rfl, ?_⟩
    rw [← hchars] at hstep
    exact leads_complete.mp (leads_of_stepAfter hstep h)
  | case7 done frames => exact fun hstep => leads_of_stepAfter hstep h

/-- Where reading can end, nothing more is to come. -/
theorem leads_of_finish {state : State} {forest : List PopulateNode} (h : finish state = some forest) :
    state.Leads [] forest := by
  revert h
  fun_cases finish state with
  | case1 | case3 | case5 => rintro ⟨⟩
  | case2 read frames done hdone =>
    rintro ⟨⟩ name hchars
    refine ⟨.bare name, [], rfl, ?_⟩
    rw [← hchars] at hdone
    exact leads_complete.mp (hdone ▸ ⟨rfl, rfl⟩)
  | case4 done =>
    rintro ⟨⟩
    exact ⟨rfl, rfl⟩

/-- What the reader reads from a state leads to the forest. -/
theorem leads_of_outcome {cs : List Char} {state : State} {forest : List PopulateNode}
    (h : outcome cs state = some forest) : state.Leads cs forest := by
  induction cs generalizing state with
  | nil => exact leads_of_finish h
  | cons c cs ih =>
    rw [outcome_cons] at h
    obtain ⟨next, hstep, hnext⟩ := Option.bind_eq_some_iff.mp h
    exact leads_of_step hstep (ih hnext)

/-! ## Characters are spelled by one tree -/

/-- A name ends where no character of names follows. -/
theorem Name.eq_of_append_eq {first second : Name} {left right : List Char}
    (h : first.chars ++ left = second.chars ++ right) (hleft : ∀ c ∈ left.head?, ¬ InNames c)
    (hright : ∀ c ∈ right.head?, ¬ InNames c) : first = second ∧ left = right := by
  have hspan (name : Name) {cs : List Char} (hcs : ∀ c ∈ cs.head?, ¬ InNames c) :
      (name.chars ++ cs).takeWhile isNameChar = name.chars := by
    rw [List.takeWhile_append_of_pos fun c hc => isNameChar_iff.mpr (name.inNames c hc)]
    cases cs with
    | nil => simp
    | cons c cs => simpa [← isNameChar_iff] using hcs
  have hchars : first.chars = second.chars := by rw [← hspan first hleft, h, hspan second hright]
  rw [hchars] at h
  cases first
  cases second
  exact ⟨by simpa using hchars, List.append_cancel_left h⟩

theorem Delimited.not_inNames {cs : List Char} (h : Delimited cs) : ∀ c ∈ cs.head?, ¬ InNames c := by
  intro c hc
  rw [← isNameChar_iff]
  rcases h c hc with rfl | rfl <;> decide

/-- A dot is no character of names. -/
theorem not_inNames_dot (cs : List Char) : ∀ c ∈ ('.' :: cs).head?, ¬ InNames c := by
  rintro _ ⟨⟩
  rw [← isNameChar_iff]
  decide

/-- An item does not begin with a bracket. -/
theorem ItemTree.text_ne_bracket (item : ItemTree) (left right : List Char) : item.text ++ left ≠ '[' :: right := by
  have hname (name : Name) (cs : List Char) : name.chars ++ cs ≠ '[' :: right := by
    obtain ⟨_ | ⟨c, chars⟩, hne, hin⟩ := name
    · exact absurd rfl hne
    · rintro ⟨⟩
      exact absurd (isNameChar_iff.mpr (hin '[' List.mem_cons_self)) (by decide)
  cases item with
  | bare name => exact hname name left
  | dotted name below => simpa [ItemTree.text] using hname name ('.' :: (below.text ++ left))

mutual

/-- Lists that spell the same up to what ends them are one. -/
theorem ListTree.eq_of_append_eq (first : ListTree) {second : ListTree} {left right : List Char}
    (h : first.text ++ left = second.text ++ right) (hleft : Delimited left) (hright : Delimited right) :
    first = second ∧ left = right := by
  cases first with
  | item item =>
    cases second with
    | item other =>
      obtain ⟨rfl, hrest⟩ := item.eq_of_append_eq h hleft hright
      exact ⟨rfl, hrest⟩
    | bracket => exact absurd h (item.text_ne_bracket _ _)
  | bracket head others =>
    cases second with
    | item other => exact absurd h.symm (other.text_ne_bracket _ _)
    | bracket head' others' =>
      have hinner : head.text ++ (textOfOthers others ++ ']' :: left) =
          head'.text ++ (textOfOthers others' ++ ']' :: right) := by
        simpa [ListTree.text] using h
      obtain ⟨rfl, hothers⟩ :=
        head.eq_of_append_eq hinner (delimited_others others left) (delimited_others others' right)
      obtain ⟨rfl, hrest⟩ := others_eq_of_append_eq others hothers
      exact ⟨rfl, hrest⟩

/-- Lists behind the first one in a bracket that spell the same up to its end are the same. -/
theorem others_eq_of_append_eq (first : List ListTree) {second : List ListTree} {left right : List Char}
    (h : textOfOthers first ++ ']' :: left = textOfOthers second ++ ']' :: right) : first = second ∧ left = right := by
  cases first with
  | nil =>
    cases second with
    | nil => exact ⟨rfl, by simpa [textOfOthers] using h⟩
    | cons => simp [textOfOthers] at h
  | cons tree others =>
    cases second with
    | nil => simp [textOfOthers] at h
    | cons tree' others' =>
      have hinner : tree.text ++ (textOfOthers others ++ ']' :: left) =
          tree'.text ++ (textOfOthers others' ++ ']' :: right) := by
        simpa [textOfOthers] using h
      obtain ⟨rfl, hothers⟩ :=
        tree.eq_of_append_eq hinner (delimited_others others left) (delimited_others others' right)
      obtain ⟨rfl, hrest⟩ := others_eq_of_append_eq others hothers
      exact ⟨rfl, hrest⟩

/-- Items that spell the same up to what ends them are one. -/
theorem ItemTree.eq_of_append_eq (first : ItemTree) {second : ItemTree} {left right : List Char}
    (h : first.text ++ left = second.text ++ right) (hleft : Delimited left) (hright : Delimited right) :
    first = second ∧ left = right := by
  have hdot {cs rest : List Char} (hcs : Delimited cs) : cs ≠ '.' :: rest := by
    rintro rfl
    rcases hcs '.' rfl with h | h <;> cases h
  cases first with
  | bare name =>
    cases second with
    | bare name' =>
      obtain ⟨rfl, hrest⟩ := name.eq_of_append_eq h hleft.not_inNames hright.not_inNames
      exact ⟨rfl, hrest⟩
    | dotted name' below =>
      rw [ItemTree.text, ItemTree.text, List.append_assoc] at h
      exact absurd (Name.eq_of_append_eq h hleft.not_inNames (not_inNames_dot _)).2 (hdot hleft)
  | dotted name below =>
    cases second with
    | bare name' =>
      rw [ItemTree.text, ItemTree.text, List.append_assoc] at h
      exact absurd (Name.eq_of_append_eq h (not_inNames_dot _) hright.not_inNames).2.symm (hdot hright)
    | dotted name' below' =>
      rw [ItemTree.text, ItemTree.text, List.append_assoc, List.append_assoc] at h
      obtain ⟨rfl, hbelow⟩ := Name.eq_of_append_eq h (not_inNames_dot _) (not_inNames_dot _)
      obtain ⟨rfl, hrest⟩ := below.eq_of_append_eq (List.cons.inj hbelow).2 hleft hright
      exact ⟨rfl, hrest⟩

end

/-- Characters are spelled by one tree at most. -/
theorem ListTree.text_injective : Function.Injective ListTree.text := by
  intro first second h
  have happend : first.text ++ [] = second.text ++ [] := by rw [h]
  exact (first.eq_of_append_eq happend delimited_nil delimited_nil).1

/-! ## Parsing -/

/-- Characters denote the forests of the trees that spell them. -/
theorem denotes_iff_tree {cs : List Char} {forest : List PopulateNode} :
    Denotes cs forest ↔ ∃ tree : ListTree, tree.text = cs ∧ tree.forest = forest := by
  have houtcome : Denotes cs forest ↔ outcome cs (.start []) = some forest := Option.bind_eq_some_iff.symm
  rw [houtcome]
  constructor
  · intro h
    obtain ⟨tree, rest, rfl, rfl, hforest⟩ := leads_of_outcome h
    exact ⟨tree, (List.append_nil _).symm, hforest⟩
  · rintro ⟨tree, rfl, rfl⟩
    have h := tree.outcome_text delimited_nil []
    rw [List.append_nil] at h
    exact h

/-- What fails to be read is told with the number of characters before it. -/
theorem readFrom_error_le {cs : List Char} {offset failed : Nat} {state : State}
    (h : readFrom cs offset state = .error failed) : failed ≤ offset + cs.length := by
  induction cs generalizing offset state with
  | nil =>
    simp only [readFrom] at h
    cases hfinish : finish state with
    | none =>
      rw [hfinish] at h
      exact (Except.error.inj h).ge
    | some done =>
      rw [hfinish] at h
      cases h
  | cons c cs ih =>
    simp only [readFrom] at h
    cases hstep : step c state with
    | none =>
      rw [hstep] at h
      obtain rfl := Except.error.inj h
      exact Nat.le_add_right _ _
    | some next =>
      rw [hstep] at h
      have hle := ih h
      rw [List.length_cons]
      omega

/-- An expression is parsed if a tree of the grammar spells its characters that are not blank. There is one such tree
then, and the relations that it denotes are merged. Every other expression fails at one of its characters, or at their
end. -/
theorem parse_expression (text : String) :
    ((∃ nodes, (expression text).parse = .ok nodes) ↔ ∃ tree : ListTree, tree.text = compact text) ∧
      (∀ tree : ListTree, tree.text = compact text →
        (∀ other : ListTree, other.text = compact text → other = tree) ∧
          (expression text).parse = .ok (PopulateNode.merge tree.forest)) ∧
      ((¬ ∃ tree : ListTree, tree.text = compact text) → ∃ offset ≤ (compact text).length,
        (expression text).parse =
          .error (.invalid (.populateExpression (String.ofList (compact text)) offset))) := by
  have hok (nodes : List PopulateNode) : (expression text).parse = .ok nodes ↔
      ∃ tree : ListTree, tree.text = compact text ∧ PopulateNode.merge tree.forest = nodes := by
    simp only [parse_eq_ok_iff, toExpression, denotes_iff_tree]
    constructor
    · rintro ⟨_, ⟨tree, htext, rfl⟩, hmerge⟩
      exact ⟨tree, htext, hmerge⟩
    · rintro ⟨tree, htext, hmerge⟩
      exact ⟨_, ⟨tree, htext, rfl⟩, hmerge⟩
  refine ⟨?_, ?_, ?_⟩
  · constructor
    · rintro ⟨nodes, h⟩
      obtain ⟨tree, htext, -⟩ := (hok nodes).mp h
      exact ⟨tree, htext⟩
    · rintro ⟨tree, htext⟩
      exact ⟨_, (hok _).mpr ⟨tree, htext, rfl⟩⟩
  · intro tree htext
    exact ⟨fun other hother => ListTree.text_injective (hother.trans htext.symm), (hok _).mpr ⟨tree, htext, rfl⟩⟩
  · intro hnone
    cases hread : readFrom (compact text) 0 (.start []) with
    | ok forest =>
      obtain ⟨tree, htext, -⟩ := denotes_iff_tree.mp (readFrom_eq_ok_iff.mp hread)
      exact absurd ⟨tree, htext⟩ hnone
    | error offset =>
      refine ⟨offset, by simpa using readFrom_error_le hread, ?_⟩
      rw [compact] at hread ⊢
      simp only [parse, toExpression, hread]

/-- Books with their authors and editors. -/
theorem parse_expression_books :
    (expression "books . [author, editor]").parse =
      .ok [.node "books" [.node "author" [], .node "editor" []]] := by
  let books : Name := ⟨['b', 'o', 'o', 'k', 's'], by decide, by simp [InNames]⟩
  let author : Name := ⟨['a', 'u', 't', 'h', 'o', 'r'], by decide, by simp [InNames]⟩
  let editor : Name := ⟨['e', 'd', 'i', 't', 'o', 'r'], by decide, by simp [InNames]⟩
  let tree : ListTree := .item (.dotted books (.bracket (.item (.bare author)) [.item (.bare editor)]))
  have htext : tree.text = compact "books . [author, editor]" := by decide
  have hmerge : PopulateNode.merge tree.forest = [.node "books" [.node "author" [], .node "editor" []]] := by decide
  rw [← hmerge]
  exact ((parse_expression _).2.1 tree htext).2

end SchemaQuery.Populate
