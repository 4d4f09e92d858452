import SyntaxNav.Proofs.Script.Nesting
import SyntaxNav.Proofs.Script.RoundTrip

/-! # Right operands are not counted

The right operand of an assignment or a power, the body of an arrow function and the alternative of a
conditional expression are read on the level of the whole expression. So the limit of nesting does not see
them: each such link can be put in front of an expression at no cost, and a chain of any length is read. What
the limit bounds are the links that lead deeper.
-/

namespace SyntaxNav

/-- A tree without the numbers of its nodes. -/
def Tree.draft (tree : Tree) : Draft :=
  tree.root.relabel Numbered.toLabel

namespace Script

open Phrase (readWithin)

/-- The links to a right operand that may be as long as the expression. -/
inductive RightLink where
  | assignment
  | arrow
  | alternate
  | power
deriving DecidableEq, Repr

/-- The sort of a link to a right operand. -/
def rightLink? (link : Link Label) : Option RightLink :=
  match link.parent.kind, link.slot.field with
  | "AssignmentExpression", "right" => some .assignment
  | "ArrowFunctionExpression", "body" => some .arrow
  | "ConditionalExpression", "alternate" => some .alternate
  | "BinaryExpression", "right" => if link.parent.text = some "**" then some .power else none
  | _, _ => none

section Success

variable {α β : Type} {cursor : Cursor} {holds : α → Cursor → Prop} {kinds rest : List TokenKind}
  {depth : Nat}

/-- A reader succeeds at a cursor, with a value and a cursor that satisfy a condition. -/
def Succeeds (reader : Reader α) (cursor : Cursor) (holds : α → Cursor → Prop) : Prop :=
  ∃ value after, reader cursor = .ok value after ∧ holds value after

private theorem succeeds_of_ok {reader : Reader α} {value : α} {after : Cursor}
    (read : reader cursor = .ok value after) : Succeeds reader cursor holds ↔ holds value after := by
  constructor
  · rintro ⟨_, _, again, holding⟩
    cases read.symm.trans again
    exact holding
  · exact fun holding => ⟨value, after, read, holding⟩

private theorem Succeeds.congr {reader other : Reader α} (same : reader cursor = other cursor) :
    Succeeds reader cursor holds ↔ Succeeds other cursor holds := by
  rw [Succeeds, Succeeds, same]

@[simp] theorem succeeds_pure (value : α) : Succeeds (pure value) cursor holds ↔ holds value cursor :=
  succeeds_of_ok rfl

@[simp] theorem succeeds_bind (first : Reader β) (next : β → Reader α) :
    Succeeds (first >>= next) cursor holds ↔
      Succeeds first cursor fun value middle => Succeeds (next value) middle holds := by
  constructor
  · rintro ⟨value, after, success, holding⟩
    change EStateM.bind first next cursor = _ at success
    unfold EStateM.bind at success
    split at success
    · exact ⟨_, _, ‹_›, value, after, success, holding⟩
    · cases success
  · rintro ⟨middleValue, middle, read, value, after, success, holding⟩
    refine ⟨value, after, ?_, holding⟩
    change EStateM.bind first next cursor = _
    simp only [EStateM.bind, read, success]

@[simp] theorem succeeds_get {holds : Cursor → Cursor → Prop} :
    Succeeds get cursor holds ↔ holds cursor cursor :=
  succeeds_of_ok rfl

@[simp] theorem succeeds_advance {holds : Unit → Cursor → Prop} :
    Succeeds advance cursor holds ↔ holds () cursor.advance :=
  succeeds_of_ok rfl

@[simp] theorem succeeds_here {holds : Pos → Cursor → Prop} :
    Succeeds here cursor holds ↔ holds cursor.start cursor :=
  succeeds_of_ok rfl

@[simp] theorem succeeds_peek {holds : Option TokenKind → Cursor → Prop} :
    Succeeds peek cursor holds ↔ holds cursor.next? cursor :=
  succeeds_of_ok rfl

@[simp] theorem succeeds_atPunct {holds : Bool → Cursor → Prop} (punct : String) :
    Succeeds (atPunct punct) cursor holds ↔ holds (cursor.atPunct punct) cursor :=
  succeeds_of_ok rfl

@[simp] theorem succeeds_eatPunct {holds : Bool → Cursor → Prop} (punct : String) :
    Succeeds (eatPunct punct) cursor holds ↔
      if cursor.atPunct punct then holds true cursor.advance else holds false cursor := by
  simp only [eatPunct, succeeds_bind, succeeds_atPunct]
  split
  · simp only [succeeds_bind, succeeds_advance, succeeds_pure]
  · exact succeeds_pure false

@[simp] theorem succeeds_node {holds : Draft → Cursor → Prop} (kind : String) (text : Option String)
    (fields : List (Field Draft)) :
    Succeeds (node kind .origin text fields) (.over kinds depth) holds ↔
      holds (tree kind text fields) (.over kinds depth) :=
  succeeds_of_ok rfl

private theorem succeeds_nested {reader : Reader α} (free : cursor.depth < maxDepth)
    (deeper : Succeeds reader { cursor with depth := cursor.depth + 1 } fun value after =>
      holds value { after with depth := after.depth - 1 }) :
    Succeeds (nested reader) cursor holds := by
  obtain ⟨value, after, read, holding⟩ := deeper
  refine ⟨value, { after with depth := after.depth - 1 }, ?_, holding⟩
  rw [nested_apply, if_neg (Nat.not_le_of_lt free), read]

/-- A reader takes tokens with a value and stops at the rest, wherever a level is left. -/
def Takes (reader : Reader α) (kinds : List TokenKind) (value : α) (rest : List TokenKind) : Prop :=
  ∀ depth < maxDepth, Succeeds reader (.over (kinds ++ rest) depth) fun again after =>
    again = value ∧ after = .over rest depth

private theorem Takes.succeeds {reader : Reader α} {value : α} (takes : Takes reader kinds value rest)
    (free : depth < maxDepth) (holding : holds value (.over rest depth)) :
    Succeeds reader (.over (kinds ++ rest) depth) holds := by
  obtain ⟨_, _, read, rfl, rfl⟩ := takes depth free
  exact ⟨_, _, read, holding⟩

/-- A value that is extended once. -/
theorem Takes.grow {extend : α → Reader (Option α)} {value larger : α}
    (extended : Takes (extend value) kinds (some larger) rest) (ends : Takes (extend larger) [] none rest)
    (someTokens : kinds ≠ []) : Takes (Script.grow extend value) kinds larger rest := by
  intro depth free
  obtain ⟨first, others, rfl⟩ := List.exists_cons_of_ne_nil someTokens
  simp only [Script.grow, growUpTo, succeeds_bind, succeeds_get]
  apply extended.succeeds free
  simp only [Cursor.over, List.cons_append, List.map_cons, List.length_cons, growUpTo, succeeds_bind]
  apply ends.succeeds free
  exact (succeeds_pure larger).mpr ⟨rfl, rfl⟩

end Success

/-- The name that all operands of a chain are. -/
def chainName : Draft := atom "Identifier" "a"

namespace RightLink

def kind : RightLink → String
  | assignment => "AssignmentExpression"
  | arrow => "ArrowFunctionExpression"
  | alternate => "ConditionalExpression"
  | power => "BinaryExpression"

def field : RightLink → String
  | assignment | power => "right"
  | arrow => "body"
  | alternate => "alternate"

/-- What is written in front of a right operand. -/
def write : RightLink → List TokenKind
  | assignment => [.word "a", .punct "="]
  | arrow => [.word "a", .punct "=>"]
  | alternate => [.word "a", .punct "?", .word "a", .punct ":"]
  | power => [.word "a", .punct "**"]

def around : RightLink → Draft → Draft
  | assignment, inner =>
    tree "AssignmentExpression" "=" [.single "left" chainName, .single "right" inner]
  | arrow, inner =>
    tree "ArrowFunctionExpression" none [.list "params" [chainName], .single "body" inner]
  | alternate, inner =>
    tree "ConditionalExpression" none
      [.single "test" chainName, .single "consequent" chainName, .single "alternate" inner]
  | power, inner =>
    tree "BinaryExpression" "**" [.single "left" chainName, .single "right" inner]

end RightLink

/-- What is written for a chain of links with a name at its end. -/
def chainTokens (links : List RightLink) : List TokenKind :=
  links.flatMap RightLink.write ++ [.word "a"]

/-- The expression that a chain of links with a name at its end is. -/
def chainDraft (links : List RightLink) : Draft :=
  links.foldr RightLink.around chainName

/-- Behind a power there are only powers, since its right operand holds no looser operator. -/
def PowersLast (links : List RightLink) : Prop :=
  links.Pairwise fun first later => first = .power → later = .power

section Reading

variable {read : PhraseReader} {limit : Nat} {mark : String} {kinds rest : List TokenKind} {inner : Draft}

private theorem unary_takes_name (known : mark ∈ ["=", "?", ":", "**", ";"]) :
    Takes (readWithin (limit + 1) .unary) [.word "a"] chainName (.punct mark :: rest) := by
  intro depth free
  have read : unary (m := Reader) (readWithin limit) (.over (.word "a" :: .punct mark :: rest) (depth + 1)) =
      .ok chainName (.over (.punct mark :: rest) (depth + 1)) := by
    simp only [List.mem_cons, List.not_mem_nil, or_false] at known
    rcases known with rfl | rfl | rfl | rfl | rfl <;> rfl
  apply succeeds_nested free
  exact (succeeds_of_ok read).mpr ⟨rfl, rfl⟩

private theorem binary_takes_name (known : mark ∈ ["=", "?", ":", ";"]) (least : Nat) (allowIn : Bool) :
    Takes (readWithin (limit + 2) (.binary least allowIn)) [.word "a"] chainName
      (.punct mark :: rest) := by
  intro depth free
  have stays : grow (m := Reader) (operation (readWithin (limit + 1)) .origin least allowIn) chainName
      (.over (.punct mark :: rest) depth) = .ok chainName (.over (.punct mark :: rest) depth) := by
    simp only [List.mem_cons, List.not_mem_nil, or_false] at known
    rcases known with rfl | rfl | rfl | rfl <;> rfl
  have subset : ∀ mark ∈ ["=", "?", ":", ";"], mark ∈ ["=", "?", ":", "**", ";"] := by decide
  simp only [readWithin, Phrase.production, binary, succeeds_bind, succeeds_here]
  apply (unary_takes_name (subset mark known)).succeeds free
  exact (succeeds_of_ok stays).mpr ⟨rfl, rfl⟩

private theorem atArrow_name (mark : String) (rest : List TokenKind) (depth : Nat) :
    (Cursor.over (.word "a" :: .punct mark :: rest) depth).atArrow = decide (mark = "=>") := by
  have isName : isKeyword "a" = false := by decide
  simp [Cursor.atArrow, Cursor.over, written, startsWithArrow, isName]

/-- What is read as an operation is read as a whole expression. -/
theorem assignment_takes {close : String} (ends : close ∈ [":", ";"])
    (noArrow : ∀ depth, (Cursor.over (kinds ++ .punct close :: rest) depth).atArrow = false)
    (takes : Takes (read (.binary 1 true)) kinds inner (.punct close :: rest)) :
    Takes (assignment read) kinds inner (.punct close :: rest) := by
  intro depth free
  simp only [assignment, assignmentOrConditional, conditional, succeeds_bind, succeeds_get, succeeds_here,
    noArrow, Bool.false_eq_true, ↓reduceIte]
  apply takes.succeeds free
  simp only [List.mem_cons, List.not_mem_nil, or_false] at ends
  rcases ends with rfl | rfl <;> simp [assignmentTo, assignmentOperator?, assignmentOperators]

private theorem assignment_takes_name {close : String} (ends : close ∈ [":", ";"]) :
    Takes (readWithin (limit + 3) .assignment) [.word "a"] chainName (.punct close :: rest) := by
  have facts : ∀ mark ∈ [":", ";"], mark ∈ ["=", "?", ":", ";"] ∧ mark ≠ "=>" := by decide
  obtain ⟨known, noArrow⟩ := facts close ends
  refine assignment_takes ends (fun depth => ?_) (binary_takes_name known 1 true)
  exact (atArrow_name close rest depth).trans (decide_eq_false noArrow)

private theorem assignmentLink_takes
    (left : Takes (read (.binary 1 true)) [.word "a"] chainName
      (.punct "=" :: (kinds ++ .punct ";" :: rest)))
    (takes : Takes (read .assignment) kinds inner (.punct ";" :: rest)) :
    Takes (assignment read) (RightLink.assignment.write ++ kinds) (RightLink.assignment.around inner)
      (.punct ";" :: rest) := by
  intro depth free
  have noArrow : (Cursor.over (.word "a" :: .punct "=" :: (kinds ++ .punct ";" :: rest)) depth).atArrow =
      false := atArrow_name "=" _ depth
  have assigns : assignmentOperator? (.punct "=") = some "=" := by decide
  simp only [assignment, assignmentOrConditional, conditional, RightLink.write, List.cons_append,
    List.nil_append, succeeds_bind, succeeds_get, succeeds_here, noArrow, Bool.false_eq_true, ↓reduceIte]
  apply left.succeeds free
  simp only [Cursor.over_start, Cursor.over_atPunct, Cursor.over_next?, Cursor.over_advance, List.head?_cons,
    Option.some.injEq, Option.bind_some, TokenKind.punct.injEq, String.reduceEq, decide_false,
    Bool.false_eq_true, ↓reduceIte, assignmentTo, assigns, succeeds_bind, succeeds_eatPunct, succeeds_peek,
    succeeds_pure, succeeds_advance]
  apply takes.succeeds free
  simp [RightLink.around]

private theorem arrowLink_takes (starts : kinds.head? = some (.word "a"))
    (takes : Takes (read .assignment) kinds inner (.punct ";" :: rest)) :
    Takes (assignment read) (RightLink.arrow.write ++ kinds) (RightLink.arrow.around inner)
      (.punct ";" :: rest) := by
  intro depth free
  have atArrow : (Cursor.over (.word "a" :: .punct "=>" :: (kinds ++ .punct ";" :: rest)) depth).atArrow =
      true := atArrow_name "=>" _ depth
  have named : bindingName (m := Reader)
        (.over (.word "a" :: .punct "=>" :: (kinds ++ .punct ";" :: rest)) depth) =
      .ok chainName (.over (.punct "=>" :: (kinds ++ .punct ";" :: rest)) depth) := rfl
  have marked : expectPunct (m := Reader) "=>" (.over (.punct "=>" :: (kinds ++ .punct ";" :: rest)) depth) =
      .ok () (.over (kinds ++ .punct ";" :: rest) depth) := rfl
  simp only [assignment, arrow, RightLink.write, List.cons_append, List.nil_append, pure_bind,
    succeeds_bind, succeeds_get, succeeds_here, succeeds_atPunct, atArrow, Cursor.over_atPunct,
    Cursor.over_start, List.head?_cons, List.head?_append, starts, Option.some_or, Option.some.injEq,
    reduceCtorEq, decide_false, Bool.false_eq_true, ↓reduceIte, succeeds_of_ok named, succeeds_of_ok marked]
  apply takes.succeeds free
  simp [RightLink.around]

private theorem alternateLink_takes
    (test : Takes (read (.binary 1 true)) [.word "a"] chainName
      (.punct "?" :: .word "a" :: .punct ":" :: (kinds ++ .punct ";" :: rest)))
    (consequent : Takes (read .assignment) [.word "a"] chainName
      (.punct ":" :: (kinds ++ .punct ";" :: rest)))
    (takes : Takes (read .assignment) kinds inner (.punct ";" :: rest)) :
    Takes (assignment read) (RightLink.alternate.write ++ kinds) (RightLink.alternate.around inner)
      (.punct ";" :: rest) := by
  intro depth free
  have noArrow : (Cursor.over (.word "a" :: .punct "?" :: .word "a" :: .punct ":" ::
      (kinds ++ .punct ";" :: rest)) depth).atArrow = false := atArrow_name "?" _ depth
  have marked : expectPunct (m := Reader) ":" (.over (.punct ":" :: (kinds ++ .punct ";" :: rest)) depth) =
      .ok () (.over (kinds ++ .punct ";" :: rest) depth) := rfl
  simp only [assignment, assignmentOrConditional, conditional, RightLink.write, List.cons_append,
    List.nil_append, succeeds_bind, succeeds_get, succeeds_here, noArrow, Bool.false_eq_true, ↓reduceIte]
  apply test.succeeds free
  simp only [Cursor.over_start, Cursor.over_atPunct, Cursor.over_advance, List.head?_cons, decide_true,
    ↓reduceIte, succeeds_eatPunct, succeeds_bind]
  apply consequent.succeeds free
  simp only [succeeds_of_ok marked]
  apply takes.succeeds free
  simp [RightLink.around, assignmentTo, assignmentOperator?, assignmentOperators]

private theorem powerLink_takes {least : Nat} (enough : least ≤ 12)
    (left : Takes (read .unary) [.word "a"] chainName (.punct "**" :: (kinds ++ .punct ";" :: rest)))
    (takes : Takes (read (.binary 12 true)) kinds inner (.punct ";" :: rest)) :
    Takes (binary read least true) (RightLink.power.write ++ kinds) (RightLink.power.around inner)
      (.punct ";" :: rest) := by
  intro depth free
  have operator : Operator.ofToken? (.punct "**") = some ⟨"**", 12⟩ := by decide
  have noOperator : Operator.ofToken? (.punct ";") = none := by decide
  have extended : Takes (operation read .origin least true chainName) (.punct "**" :: kinds)
      (some (RightLink.power.around inner)) (.punct ";" :: rest) := by
    intro depth free
    simp only [operation, List.cons_append, succeeds_bind, succeeds_peek, succeeds_advance,
      Cursor.over_next?, Cursor.over_advance, List.head?_cons, Option.bind_some, operator,
      Nat.not_lt_of_le enough, decide_false, Bool.not_true, Bool.and_false, Bool.or_false,
      Bool.false_eq_true, ↓reduceIte]
    apply takes.succeeds free
    simp [RightLink.around, Operator.nodeKind]
  have ends : Takes (operation read .origin least true (RightLink.power.around inner)) [] none
      (.punct ";" :: rest) := by
    intro depth free
    simp [operation, noOperator]
  simp only [binary, RightLink.write, List.cons_append, List.nil_append, succeeds_bind, succeeds_here]
  apply left.succeeds free
  exact extended.grow ends (List.cons_ne_nil _ _) depth free

/-- A link can be put in front of an expression, and the levels that are left stay the same. -/
theorem link_takes (link : RightLink) (noPower : link ≠ .power)
    (starts : kinds.head? = some (.word "a"))
    (takes : Takes (readWithin (limit + 3) .assignment) kinds inner (.punct ";" :: rest)) :
    Takes (readWithin (limit + 4) .assignment) (link.write ++ kinds) (link.around inner)
      (.punct ";" :: rest) := by
  cases link with
  | assignment => exact assignmentLink_takes (binary_takes_name (by decide) 1 true) takes
  | arrow => exact arrowLink_takes starts takes
  | alternate =>
    exact alternateLink_takes (binary_takes_name (by decide) 1 true) (assignment_takes_name (by decide)) takes
  | power => exact absurd rfl noPower

private theorem powers_take (powers : Nat) {least : Nat} (enough : least ≤ 12) :
    Takes (readWithin (limit + powers + 2) (.binary least true))
      (chainTokens (List.replicate powers .power)) (chainDraft (List.replicate powers .power))
      (.punct ";" :: rest) := by
  induction powers generalizing least with
  | zero => exact binary_takes_name (by decide) least true
  | succ powers ih =>
    exact powerLink_takes enough (unary_takes_name (by decide)) (ih (Nat.le_refl 12))

private theorem chainTokens_cons (link : RightLink) (links : List RightLink) :
    chainTokens (link :: links) = link.write ++ chainTokens links := by
  rw [chainTokens, chainTokens, List.flatMap_cons, List.append_assoc]

private theorem head?_chainTokens (links : List RightLink) :
    (chainTokens links).head? = some (.word "a") := by
  cases links with
  | nil => rfl
  | cons link links => cases link <;> rfl

private theorem chain_takes {links : List RightLink} (last : PowersLast links) :
    Takes (readWithin (limit + links.length + 3) .assignment) (chainTokens links) (chainDraft links)
      (.punct ";" :: rest) := by
  induction links with
  | nil => exact assignment_takes_name (by decide)
  | cons link links ih =>
    obtain ⟨behind, later⟩ := List.pairwise_cons.mp last
    by_cases isPower : link = .power
    · have powers : link :: links = List.replicate (links.length + 1) .power := by
        apply List.eq_replicate_iff.mpr
        exact ⟨rfl, List.forall_mem_cons.mpr ⟨isPower, fun other member => behind other member isPower⟩⟩
      rw [powers, List.length_replicate]
      refine assignment_takes (by decide) (fun depth => ?_) (powers_take _ (by decide))
      exact atArrow_name "**" _ depth
    · rw [chainTokens_cons, List.length_cons, ← Nat.add_assoc, Nat.add_right_comm _ 1 3]
      exact link_takes link isPower (head?_chainTokens links) (ih later)

end Reading

section Programs

variable {limit : Nat} {links : List RightLink}

def chainProgram (links : List RightLink) : Draft :=
  tree "Program" none
    [.list "body" [tree "ExpressionStatement" none [.single "expression" (chainDraft links)]]]

/-- What is written for a program with a chain as its only statement. -/
def programTokens (links : List RightLink) : List TokenKind :=
  chainTokens links ++ [.punct ";"]

private theorem statement_reads_chain
    (takes : Takes (readWithin limit .assignment) (chainTokens links) (chainDraft links) [.punct ";"]) :
    Succeeds (readWithin (limit + 1) .statement) (.over (programTokens links) 0)
      fun draft after => draft = tree "ExpressionStatement" none [.single "expression" (chainDraft links)] ∧
        after = .over [] 0 := by
  have next : (Cursor.over (programTokens links) 1).next? = some (.word "a") := by
    rw [Cursor.over_next?, programTokens, List.head?_append, head?_chainTokens]
    rfl
  have noMore : many (m := Reader) (do return !(← eatPunct ",")) (readWithin limit .assignment)
      (.over [.punct ";"] 1) = .ok [] (.over [.punct ";"] 1) := rfl
  have ended : semicolon (m := Reader) (.over [.punct ";"] 1) = .ok () (.over [] 1) := rfl
  have free : 0 < maxDepth := by decide
  apply succeeds_nested free
  change Succeeds (statement (readWithin limit)) (.over (programTokens links) 1) _
  simp only [statement, succeeds_bind, succeeds_here, succeeds_peek, next]
  change Succeeds (expressionStatement (readWithin limit)) _ _
  simp only [expressionStatement, expression, sequence, commaSeparated, succeeds_bind, succeeds_here]
  apply takes.succeeds (by decide)
  simp only [succeeds_of_ok noMore, succeeds_of_ok ended, succeeds_pure, Cursor.over_start, succeeds_node,
    true_and]
  rfl

/-- A statement that takes all tokens is a program. -/
theorem program_reads_one {read : PhraseReader} {kinds : List TokenKind} {statement : Draft}
    (reads : Succeeds (read .statement) (.over kinds 0) fun draft after =>
      draft = statement ∧ after = .over [] 0) (someTokens : kinds ≠ []) :
    Succeeds (program read) (.over kinds 0) fun draft _ =>
      draft = tree "Program" none [.list "body" [statement]] := by
  obtain ⟨first, others, rfl⟩ := List.exists_cons_of_ne_nil someTokens
  obtain ⟨_, _, found, rfl, rfl⟩ := reads
  have rounds : many atEnd (read .statement) (.over (first :: others) 0) = (do
      if ← atEnd then
        return []
      let one ← read .statement
      let rest ← manyUpTo atEnd (read .statement) ((others.map written).length + 1)
      return one :: rest : Reader (List Draft)) (.over (first :: others) 0) := rfl
  have going : atEnd (m := Reader) (.over (first :: others) 0) = .ok false (.over (first :: others) 0) := rfl
  have ended : manyUpTo atEnd (read .statement) ((others.map written).length + 1) (.over [] 0) =
      .ok [] (.over [] 0) := rfl
  simp only [program, succeeds_bind, Succeeds.congr rounds, succeeds_of_ok going, succeeds_of_ok found,
    succeeds_of_ok ended, make_draft, succeeds_pure, succeeds_get, Bool.false_eq_true, ↓reduceIte]
  rfl

private theorem length_lt_programTokens (links : List RightLink) :
    links.length < (programTokens links).length := by
  have someTokens : ∀ link ∈ links, link.write ≠ [] := by
    intro link _
    cases link <;> exact List.cons_ne_nil _ _
  have shorter := length_le_of_nonempty RightLink.write someTokens
  simp only [programTokens, chainTokens, List.length_append, List.length_singleton]
  omega

/-- A program with a chain as its only statement is read from its tokens, however long the chain is. -/
theorem parseTokens_chain (last : PowersLast links) :
    parseTokens ((programTokens links).map written) .origin = .ok (chainProgram links) := by
  have longer := length_lt_programTokens links
  -- There are more unrollings than links.
  obtain ⟨spare, enough⟩ : ∃ spare,
      unrollings ((programTokens links).map written).length = spare + links.length + 3 + 1 := by
    refine ⟨unrollings ((programTokens links).map written).length - (links.length + 4), ?_⟩
    rw [unrollings, List.length_map]
    omega
  have takes : Takes (readWithin (spare + links.length + 3) .assignment) (chainTokens links)
      (chainDraft links) [.punct ";"] := chain_takes last
  have someTokens : programTokens links ≠ [] := List.length_pos_iff.mp (Nat.zero_lt_of_lt longer)
  have start : Cursor.first ((programTokens links).map written) .origin = .over (programTokens links) 0 := rfl
  obtain ⟨draft, after, run, rfl⟩ := program_reads_one (statement_reads_chain takes) someTokens
  rw [parseTokens, enough, start, run]
  rfl

private theorem legible_programTokens (links : List RightLink) :
    ∀ kind ∈ programTokens links, Legible kind := by
  have all : [TokenKind.word "a", .punct "=", .punct "=>", .punct "?", .punct ":", .punct "**",
      .punct ";"].all isReread = true := by decide +kernel
  have each : ∀ link : RightLink, ∀ kind ∈ link.write, isReread kind = true := by
    intro link kind member
    apply List.all_eq_true.mp all
    cases link <;> simp only [RightLink.write, List.mem_cons, List.not_mem_nil, or_false] at member ⊢ <;>
      tauto
  intro kind member
  apply legible_of_reread
  simp only [programTokens, chainTokens, List.mem_append, List.mem_flatMap, List.mem_singleton] at member
  rcases member with (⟨link, -, member⟩ | rfl) | rfl
  · exact each link kind member
  · exact List.all_eq_true.mp all _ (by decide)
  · exact List.all_eq_true.mp all _ (by decide)

/-- A program with a chain as its only statement is parsed, however long the chain is. -/
theorem parse_chain (last : PowersLast links) :
    ∃ draft, parse (spaced (programTokens links)) = .ok draft ∧ flat draft = flat (chainProgram links) := by
  obtain ⟨tokens, scans, same⟩ := scans_spaced (legible_programTokens links)
  have scanned : scan (spaced (programTokens links)).toList = ⟨tokens, none⟩ := scans.scanFrom_eq
  have clean : (scan (spaced (programTokens links)).toList).error = none := by rw [scanned]
  have alike : unplaced (parse (spaced (programTokens links))) = .ok (flat (chainProgram links)) := by
    rw [parse_of_scan clean, scanned, parseTokens_of_content same _ .origin, parseTokens_chain last]
    rfl
  cases result : parse (spaced (programTokens links)) with
  | ok draft =>
    rw [result] at alike
    exact ⟨draft, rfl, Except.ok.inj alike⟩
  | error error =>
    rw [result] at alike
    cases alike

end Programs

section Descents

private theorem RightLink.kind_around (link : RightLink) (inner : Draft) :
    (link.around inner).label.kind = link.kind := by
  cases link <;> rfl

private theorem RightLink.mem_children_around (link : RightLink) (inner : Draft) :
    (Slot.single link.field, inner) ∈ (link.around inner).children := by
  cases link with
  | assignment | arrow | power => exact List.mem_cons_of_mem _ List.mem_cons_self
  | alternate => exact List.mem_cons_of_mem _ (List.mem_cons_of_mem _ List.mem_cons_self)

private theorem RightLink.plain (link : RightLink) :
    holdsStatements link.kind link.field = false ∧ isOperand link.kind = false := by
  cases link <;> decide

/-- The link from the expression around a right operand is of its sort and does not lead deeper. -/
theorem around_descends (link : RightLink) {inner target : Draft} {run : List (Link Label)}
    (noOperand : isOperand inner.label.kind = false) (descends : inner.Descends run target) :
    ∃ first, (link.around inner).Descends (first :: run) target ∧ rightLink? first = some link ∧
      leadsDeeper first = false := by
  refine ⟨_, .cons (link.mem_children_around inner) descends, ?_, ?_⟩
  · cases link <;> rfl
  · have plain : holdsStatements (link.around inner).label.kind link.field = false := by
      rw [link.kind_around]
      exact link.plain.1
    change deepens (link.around inner).label.kind link.field inner.label.kind = false
    rw [deepens, plain, noOperand]
    rfl

private theorem isOperand_chainDraft (links : List RightLink) :
    isOperand (chainDraft links).label.kind = false := by
  cases links with
  | nil => decide
  | cons link links =>
    rw [chainDraft, List.foldr_cons, link.kind_around]
    exact link.plain.2

/-- The links of a chain lead down to its end, and none of them leads deeper. -/
theorem chainDraft_descends (links : List RightLink) :
    ∃ run, (chainDraft links).Descends run chainName ∧ run.map rightLink? = links.map some ∧
      run.map leadsDeeper = links.map fun _ => false := by
  induction links with
  | nil => exact ⟨[], .nil _, rfl, rfl⟩
  | cons link links ih =>
    obtain ⟨run, descends, sorts, shallow⟩ := ih
    obtain ⟨first, whole, sort, flat⟩ := around_descends link (isOperand_chainDraft links) descends
    refine ⟨first :: run, whole, ?_, ?_⟩
    · rw [List.map_cons, List.map_cons, sort, sorts]
    · rw [List.map_cons, List.map_cons, flat, shallow]

/-- Drafts that differ in positions only have the same descents, but for positions. -/
theorem descends_of_flat {draft other target : Draft} {links : List (Link Label)}
    (same : flat draft = flat other) (descends : other.Descends links target) :
    ∃ original reached, draft.Descends original reached ∧
      ∀ {β : Type} (see : Link Label → β), (∀ link, see (link.map (Label.relocate nowhere)) = see link) →
        original.map see = links.map see := by
  have moved : (flat other).Descends _ _ := descends.relabel (Label.relocate nowhere)
  rw [← same] at moved
  obtain ⟨original, reached, found, alike⟩ := moved.of_relabel
  refine ⟨original, reached, found, ?_⟩
  intro β see blind
  have seen := congrArg (List.map see) alike
  simpa only [List.map_map, Function.comp_def, blind] using seen

/-- The tree of a chain has a descent through all its links. -/
theorem chainProgram_descends {draft : Draft} {links : List RightLink}
    (same : flat draft = flat (chainProgram links)) :
    ∃ above run target, draft.Descends (above ++ run) target ∧ run.map rightLink? = links.map some ∧
      run.countP leadsDeeper = 0 := by
  obtain ⟨run, descends, sorts, shallow⟩ := chainDraft_descends links
  have body : (chainProgram links).Descends (_ :: _ :: run) chainName :=
    .cons List.mem_cons_self (.cons List.mem_cons_self descends)
  obtain ⟨original, target, found, alike⟩ := descends_of_flat same body
  refine ⟨original.take 2, original.drop 2, target, by rwa [List.take_append_drop], ?_, ?_⟩
  · rw [List.map_drop, alike rightLink? fun _ => rfl]
    exact sorts
  · have flat : (original.drop 2).map leadsDeeper = links.map fun _ => false := by
      rw [List.map_drop, alike leadsDeeper fun _ => rfl]
      exact shallow
    have counted := List.countP_map (p := id) (f := leadsDeeper) (l := original.drop 2)
    rw [flat, List.countP_map] at counted
    exact counted.symm.trans (List.countP_eq_zero.mpr fun _ _ => Bool.false_ne_true)

private theorem language_parses_chain (id : TreeId) {links : List RightLink} (last : PowersLast links) :
    ∃ tree above run target, (language.parse id (spaced (programTokens links))).value = .ok tree ∧
      tree.draft.Descends (above ++ run) target ∧ run.map rightLink? = links.map some ∧
      run.countP leadsDeeper = 0 := by
  obtain ⟨draft, parsed, same⟩ := parse_chain last
  rcases toTree_cases id (spaced (programTokens links)) with ⟨error, failed, -⟩ | ⟨tree, drafted, planted, -⟩
  · cases parsed.symm.trans failed
  · obtain rfl : draft = tree.draft := Except.ok.inj (parsed.symm.trans drafted)
    obtain ⟨above, run, target, descends, sorts, shallow⟩ := chainProgram_descends same
    exact ⟨tree, above, run, target, planted, descends, sorts, shallow⟩

end Descents

/-- The limit of nesting bounds how many links of a descent lead deeper. It does not bound the links to right
operands: every chain of them, of any length, is accepted, and none of its links leads deeper. -/
theorem nesting_limit_spares_right_operands (id : TreeId) :
    (∀ source tree, (language.parse id source).value = .ok tree →
      ∀ links target, tree.draft.Descends links target → links.countP leadsDeeper ≤ maxDepth) ∧
    ∀ links, PowersLast links →
      ∃ tree above run target, (language.parse id (spaced (programTokens links))).value = .ok tree ∧
        tree.draft.Descends (above ++ run) target ∧ run.map rightLink? = links.map some ∧
        run.countP leadsDeeper = 0 := by
  refine ⟨fun source tree parsed => ?_, fun links last => language_parses_chain id last⟩
  have planted : toTree id source = .ok tree := parsed
  obtain ⟨drafted, -⟩ := toTree_spec planted
  exact parse_fits drafted

/-- A chain with more assignments than there are levels is accepted. -/
theorem long_assignment_chain_is_accepted :
    ∃ tree above run target, (language.parse 0
        (spaced (programTokens (List.replicate 501 .assignment)))).value = .ok tree ∧
      tree.draft.Descends (above ++ run) target ∧ (∀ link ∈ run, (rightLink? link).isSome = true) ∧
      maxDepth < run.length := by
  have last : PowersLast (List.replicate 501 .assignment) :=
    List.pairwise_replicate.mpr (.inr fun same => same)
  obtain ⟨tree, above, run, target, parsed, descends, sorts, -⟩ := language_parses_chain 0 last
  refine ⟨tree, above, run, target, parsed, descends, ?_, ?_⟩
  · intro link member
    have sort := List.mem_map_of_mem (f := rightLink?) member
    rw [sorts] at sort
    obtain ⟨_, -, same⟩ := List.mem_map.mp sort
    rw [← same]
    rfl
  · have size := congrArg List.length sorts
    rw [List.length_map, List.length_map, List.length_replicate] at size
    rw [size]
    decide

end Script

end SyntaxNav
