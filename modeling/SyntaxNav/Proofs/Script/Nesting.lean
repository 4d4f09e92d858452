import SyntaxNav.Proofs.Script.Assembly
import SyntaxNav.Proofs.Tree.Descent

/-! # What the limit of nesting counts

A link from a node to a child leads deeper if the child is always read one level below the node: a statement
in another one, an operand that stands in a place of its own, and a construction that is constructed. A
descent from the root of a draft has at most as many such links as there are levels.

`Brings room reader holds` follows the readers: with so many levels left, the value that a reader gives
satisfies a condition. Each production brings drafts for which the levels that are left to it are enough, if
the phrases inside it do.
-/

namespace SyntaxNav.Script

open Phrase (readWithin)

def holdsStatements (kind field : String) : Bool :=
  [("Program", "body"), ("BlockStatement", "body"), ("IfStatement", "consequent"),
    ("IfStatement", "alternate"), ("ForStatement", "body"), ("WhileStatement", "body"),
    ("DoWhileStatement", "body"), ("SwitchCase", "consequent")].contains (kind, field)

/-- Whether a node is an operand of more than one token. -/
def isOperand (kind : String) : Bool :=
  ["UnaryExpression", "UpdateExpression", "MemberExpression", "OptionalMemberExpression",
    "CallExpression", "NewExpression", "FunctionExpression", "ArrayExpression",
    "ObjectExpression"].contains kind

/-- Whether a field holds what is read as a part of the same operand. -/
def sharesOperand (kind field : String) : Bool :=
  [("UpdateExpression", "argument"), ("MemberExpression", "object"),
    ("OptionalMemberExpression", "object"), ("CallExpression", "callee"), ("NewExpression", "callee"),
    ("ClassDeclaration", "superClass")].contains (kind, field)

/-- Whether a child of a kind is always read one level below its parent. -/
def deepens (parent field child : String) : Bool :=
  holdsStatements parent field || isOperand child &&
    (!sharesOperand parent field || parent = "NewExpression" && child = "NewExpression")

def leadsDeeper (link : Link Label) : Bool :=
  deepens link.parent.kind link.slot.field link.child.kind

section Rooms

variable {room : Nat} {draft : Draft} {deeper other : String → Bool} {kind field : String}

/-- So many levels are enough for what is inside a draft. -/
abbrev Fits (room : Nat) (draft : Draft) : Prop := draft.Within leadsDeeper room

/-- So many levels are enough for a draft that takes one itself. -/
def FitsDeeper (room : Nat) (draft : Draft) : Prop :=
  ∃ less, room = less + 1 ∧ Fits less draft

/-- So many levels are enough for a draft that takes one itself if it is of certain kinds. -/
structure FitsIn (deeper : String → Bool) (room : Nat) (draft : Draft) : Prop where
  fits : Fits room draft
  fitsDeeper : deeper draft.label.kind = true → FitsDeeper room draft

/-- So many levels are enough for a draft in a place of its own. -/
abbrev FitsAlone : Nat → Draft → Prop := FitsIn isOperand

/-- So many levels are enough for a draft that is constructed. -/
abbrev FitsConstructed : Nat → Draft → Prop := FitsIn fun kind => kind = "NewExpression"

private theorem FitsDeeper.fitsIn (fits : FitsDeeper room draft) : FitsIn deeper room draft := by
  refine ⟨?_, fun _ => fits⟩
  obtain ⟨less, rfl, fits⟩ := fits
  exact fits.mono (Nat.le_succ less)

private theorem Fits.fitsIn (fits : Fits room draft) (alike : deeper draft.label.kind = false) :
    FitsIn deeper room draft :=
  ⟨fits, fun deepens => absurd (alike.symm.trans deepens) Bool.false_ne_true⟩

private theorem FitsIn.mono (fits : FitsIn deeper room draft)
    (imp : ∀ kind, other kind = true → deeper kind = true) : FitsIn other room draft :=
  ⟨fits.fits, fun deepens => fits.fitsDeeper (imp _ deepens)⟩

/-- What fits in a place of its own fits wherever no statement is held. -/
theorem FitsIn.held (fits : FitsAlone room draft) (plain : holdsStatements kind field = false) :
    FitsIn (deepens kind field) room draft := by
  apply fits.mono
  intro child deepens
  rw [Script.deepens, plain, Bool.false_or] at deepens
  exact (Bool.and_eq_true_iff.mp deepens).1

theorem FitsIn.constructed (fits : FitsAlone room draft) : FitsConstructed room draft := by
  apply fits.mono
  intro kind construction
  rw [of_decide_eq_true construction]
  decide

/-- What is read as a part of the same operand fits without a level of its own. -/
theorem Fits.shared (fits : Fits room draft) (plain : holdsStatements kind field = false)
    (shares : sharesOperand kind field = true) (noConstruction : kind ≠ "NewExpression") :
    FitsIn (deepens kind field) room draft := by
  apply fits.fitsIn
  simp [deepens, plain, shares, noConstruction]

/-- What is constructed is read as a part of the same operand, unless it is a construction itself. -/
theorem FitsIn.callee (fits : FitsConstructed room draft) :
    FitsIn (deepens "NewExpression" "callee") room draft := by
  apply fits.mono
  intro child deepens
  have both : isOperand child = true ∧ child = "NewExpression" := by
    simpa [Script.deepens, holdsStatements, sharesOperand] using deepens
  exact decide_eq_true both.2

/-- So many levels are enough for the fields of a node of a kind. -/
inductive FieldsFit (room : Nat) (kind : String) : List (Field Draft) → Prop
  | nil : FieldsFit room kind []
  | cons {field : Field Draft} {rest : List (Field Draft)} :
      (∀ child ∈ field.contents, FitsIn (deepens kind field.name) room child) →
      FieldsFit room kind rest → FieldsFit room kind (field :: rest)

namespace FieldsFit

variable {name : String} {child : Draft} {part : Option Draft} {children : List Draft}
  {rest : List (Field Draft)}

private theorem one (fits : FitsIn (deepens kind name) room child) (others : FieldsFit room kind rest) :
    FieldsFit room kind (.single name (some child) :: rest) :=
  .cons (List.forall_mem_singleton.mpr fits) others

private theorem optional (fits : ∀ child ∈ part, FitsIn (deepens kind name) room child)
    (others : FieldsFit room kind rest) : FieldsFit room kind (.single name part :: rest) :=
  .cons (fun child member => fits child (Option.mem_toList.mp member)) others

private theorem list (fits : ∀ child ∈ children, FitsIn (deepens kind name) room child)
    (others : FieldsFit room kind rest) : FieldsFit room kind (.list name children :: rest) :=
  .cons fits others

/-- A child that may be absent, in a place of its own. -/
theorem maybe (fits : ∀ child ∈ part, FitsAlone room child) (plain : holdsStatements kind name = false)
    (others : FieldsFit room kind rest) : FieldsFit room kind (.single name part :: rest) :=
  .optional (fun child member => (fits child member).held plain) others

/-- A list of children, each in a place of its own. -/
theorem each (fits : ∀ child ∈ children, FitsAlone room child) (plain : holdsStatements kind name = false)
    (others : FieldsFit room kind rest) : FieldsFit room kind (.list name children :: rest) :=
  .list (fun child member => (fits child member).held plain) others

private theorem of_mem {fields : List (Field Draft)} (fit : FieldsFit room kind fields) {field : Field Draft}
    (member : field ∈ fields) {child : Draft} (held : child ∈ field.contents) :
    FitsIn (deepens kind field.name) room child := by
  induction fit with
  | nil => cases member
  | cons fits _ ih =>
    rcases List.mem_cons.mp member with rfl | later
    · exact fits child held
    · exact ih later

end FieldsFit

/-- A child in its slot is held by a field of that name. -/
theorem field_of_mem_spread {fields : List (Field Draft)} {child : Slot × Draft}
    (member : child ∈ Field.spread fields) :
    ∃ field ∈ fields, child.1.field = field.name ∧ child.2 ∈ field.contents := by
  obtain ⟨field, known, held⟩ := List.mem_flatMap.mp member
  refine ⟨field, known, ?_, ?_⟩
  · cases field with
    | single name part =>
      cases part with
      | none => cases held
      | some draft => rw [List.mem_singleton.mp held]; rfl
    | list name children =>
      obtain ⟨pair, -, rfl⟩ := List.mem_map.mp held
      rfl
  · rw [← Field.map_snd_slots]
    exact List.mem_map_of_mem held

private theorem FieldsFit.branch {label : Label} {fields : List (Field Draft)}
    (fit : FieldsFit room label.kind fields) : Fits room (Draft.branch label fields) := by
  apply SlotTree.within_of_children
  intro child member
  obtain ⟨field, known, name, held⟩ := field_of_mem_spread member
  have fits := fit.of_mem known held
  refine ⟨fits.fits, fun counted => fits.fitsDeeper ?_⟩
  rw [← name]
  exact counted

private theorem fitsIn_leaf (token : Token) (alike : deeper kind = false) :
    FitsIn deeper room (leaf kind token) :=
  Fits.fitsIn (SlotTree.within_of_children fun _ member => absurd member List.not_mem_nil) alike

end Rooms

private theorem forall_mem_none {α : Type} (holds : α → Prop) : ∀ value ∈ (none : Option α), holds value :=
  fun value member => absurd member (Option.not_mem_none value)

private theorem forall_mem_some {α : Type} {holds : α → Prop} {value : α} (holding : holds value) :
    ∀ other ∈ some value, holds other :=
  fun _ member => Option.mem_some_iff.mp member ▸ holding

/-- With so many levels left, a reader leaves the depth as it was and gives a value that satisfies a
condition. -/
def Brings {α : Type} (room : Nat) (reader : Reader α) (holds : α → Prop) : Prop :=
  ∀ cursor value after, cursor.depth + room = maxDepth → reader cursor = .ok value after →
    after.depth = cursor.depth ∧ holds value

namespace Brings

variable {α β γ : Type} {room : Nat} {holds : α → Prop} {leads : β → Prop}

section Steps

private theorem mono {reader : Reader α} {weaker : α → Prop} (brings : Brings room reader holds)
    (imp : ∀ value, holds value → weaker value) : Brings room reader weaker := by
  intro cursor value after left success
  obtain ⟨same, holding⟩ := brings cursor value after left success
  exact ⟨same, imp value holding⟩

private theorem pure {value : α} (holding : holds value) : Brings room (Pure.pure value) holds := by
  intro cursor other after _ success
  cases success
  exact ⟨rfl, holding⟩

private theorem bind {first : Reader β} {next : β → Reader α} (start : Brings room first leads)
    (rest : ∀ value, leads value → Brings room (next value) holds) :
    Brings room (first >>= next) holds := by
  intro cursor value after left success
  change EStateM.bind first next cursor = _ at success
  unfold EStateM.bind at success
  split at success
  · rename_i middleValue middle read
    obtain ⟨same, leading⟩ := start _ _ _ left read
    obtain ⟨sameAgain, holding⟩ := rest middleValue leading _ _ _ (same ▸ left) success
    exact ⟨sameAgain.trans same, holding⟩
  · cases success

/-- A reader whose value does not matter. -/
theorem of_assembled {reader : Reader α} (assembled : Assembled reader) :
    Brings room reader fun _ => True := by
  intro cursor value after _ success
  obtain ⟨taken, passes⟩ := assembled.endsInPlace.ok cursor value after success
  exact ⟨passes.depth, trivial⟩

private theorem past {first : Reader β} {next : β → Reader α} (start : Assembled first)
    (rest : ∀ value, Brings room (next value) holds) : Brings room (first >>= next) holds :=
  .bind (.of_assembled start) fun value _ => rest value

private theorem fail (fault : Fault) : Brings room (Script.fail fault) holds := by
  intro cursor value after _ success
  cases success

private theorem failAt (pos : Pos) (fault : Fault) : Brings room (Script.failAt pos fault) holds := by
  intro cursor value after _ success
  cases success

private theorem failExpected (wanted : String) : Brings room (Script.failExpected wanted) holds :=
  .past .get fun _ => .fail _

private theorem ite {test : Prop} [Decidable test] {first second : Reader α} (yes : Brings room first holds)
    (no : Brings room second holds) : Brings room (if test then first else second) holds := by
  split
  · exact yes
  · exact no

private theorem join {test : Prop} [Decidable test] {first second : Reader β} {next : β → Reader α}
    (yes : Brings room first leads) (no : Brings room second leads)
    (rest : ∀ value, leads value → Brings room (next value) holds) :
    Brings room (if test then first >>= next else second >>= next) holds :=
  .ite (.bind yes rest) (.bind no rest)

private theorem map {change : β → α} {reader : Reader β} (inner : Brings room reader leads)
    (imp : ∀ value, leads value → holds (change value)) :
    Brings room (do return change (← reader)) holds :=
  .bind inner fun value leading => .pure (imp value leading)

/-- A reader whose value is wrapped before the rest. -/
theorem wrap {first : Reader β} {wrapped : β → γ} {next : γ → Reader α} (start : Brings room first leads)
    (rest : ∀ value, leads value → Brings room (next (wrapped value)) holds) :
    Brings room (first >>= fun value => Pure.pure (wrapped value) >>= next) holds := by
  refine .bind start fun value leading => .bind (.pure rfl) ?_
  rintro _ rfl
  exact rest value leading

/-- A part that may be absent, before the rest. -/
theorem optional {test : Prop} [Decidable test] {part : Reader β} {next : Option β → Reader α}
    (present : Brings room part leads)
    (rest : ∀ value, (∀ inner ∈ value, leads inner) → Brings room (next value) holds) :
    Brings room (if test then part >>= fun value => Pure.pure (some value) >>= next
      else Pure.pure none >>= next) holds := by
  refine .ite (.wrap present fun value leading => rest _ ?_) (.bind (.pure (forall_mem_none _)) rest)
  exact forall_mem_some leading

/-- A reader one level deeper has one level less to spend. -/
theorem nested {reader : Reader α} (deeper : ∀ less, room = less + 1 → Brings less reader holds) :
    Brings room (Script.nested reader) holds := by
  intro cursor value after left success
  rw [nested_apply] at success
  split at success
  · cases success
  · split at success
    · rename_i free _ _ inner read
      cases success
      have less : cursor.depth + 1 + (room - 1) = maxDepth := by omega
      obtain ⟨same, holding⟩ := deeper (room - 1) (by omega) _ _ _ less read
      exact ⟨by rw [same]; rfl, holding⟩
    · cases success

/-- A node fits if its fields do. -/
theorem node {kind : String} {start : Pos} {text : Option String} {fields : List (Field Draft)}
    (fit : FieldsFit room kind fields) : Brings room (Script.node kind start text fields) (Fits room) :=
  .past .get fun _ => .pure fit.branch

private theorem nodeIn {deeper : String → Bool} {kind : String} {start : Pos} {text : Option String}
    {fields : List (Field Draft)} (alike : deeper kind = false) (fit : FieldsFit room kind fields) :
    Brings room (Script.node kind start text fields) (FitsIn deeper room) :=
  .past .get fun _ => .pure (fit.branch.fitsIn alike)

end Steps

section Repetition

variable {stop : Reader Bool} {item : Reader α}

private theorem manyUpTo (stops : Assembled stop) (items : Brings room item holds) (limit : Nat) :
    Brings room (Script.manyUpTo stop item limit) fun values => ∀ value ∈ values, holds value := by
  induction limit with
  | zero => exact .fail .stalled
  | succ limit ih =>
    refine .past stops fun _ => .ite (.pure (List.forall_mem_nil _)) (.bind items fun first holding => ?_)
    exact .map ih fun rest others => List.forall_mem_cons.mpr ⟨holding, others⟩

private theorem many (stops : Assembled stop) (items : Brings room item holds) :
    Brings room (Script.many stop item) fun values => ∀ value ∈ values, holds value :=
  .past .get fun _ => .manyUpTo stops items _

private theorem listUpTo {close : String} (items : Brings room item holds) (limit : Nat) :
    Brings room (Script.listUpTo close item limit) fun values => ∀ value ∈ values, holds value := by
  induction limit with
  | zero => exact .fail .stalled
  | succ limit ih =>
    refine .past .eatPunct fun _ => .ite (.pure (List.forall_mem_nil _)) (.bind items fun first holding => ?_)
    refine .past .eatPunct fun _ => .ite ?_ (.past .expectPunct fun _ => ?_)
    · exact .map ih fun rest others => List.forall_mem_cons.mpr ⟨holding, others⟩
    · exact .pure (List.forall_mem_singleton.mpr holding)

private theorem list {close : String} (items : Brings room item holds) :
    Brings room (Script.list close item) fun values => ∀ value ∈ values, holds value :=
  .past .get fun _ => .listUpTo items _

private theorem commaSeparated (items : Brings room item holds) :
    Brings room (Script.commaSeparated item) fun values => ∀ value ∈ values, holds value :=
  .bind items fun _ holding => .map (.many (.map .eatPunct) items) fun _ others =>
    List.forall_mem_cons.mpr ⟨holding, others⟩

private theorem growUpTo {extend : α → Reader (Option α)}
    (extension : ∀ value, holds value →
      Brings room (extend value) fun extended => ∀ larger ∈ extended, holds larger)
    (limit : Nat) {value : α} (holding : holds value) :
    Brings room (Script.growUpTo extend limit value) holds := by
  induction limit generalizing value with
  | zero => exact .fail .stalled
  | succ limit ih =>
    refine .bind (extension value holding) fun extended larger => ?_
    cases extended with
    | none => exact .pure holding
    | some grown => exact ih (larger grown rfl)

private theorem grow {extend : α → Reader (Option α)}
    (extension : ∀ value, holds value →
      Brings room (extend value) fun extended => ∀ larger ∈ extended, holds larger)
    {value : α} (holding : holds value) : Brings room (Script.grow extend value) holds :=
  .past .get fun _ => .growUpTo extension _ holding

end Repetition

section Names

private theorem leaf {kind : String} {token : Token} {deeper : String → Bool} (alike : deeper kind = false) :
    Brings room (do advance; return Script.leaf kind token) (FitsIn deeper room) :=
  .past .advance fun _ => .pure (fitsIn_leaf token alike)

private theorem bindingName : Brings room Script.bindingName (FitsAlone room) := by
  refine .past .get fun cursor => ?_
  split
  · exact .failExpected _
  · split
    · exact .ite (.failExpected _) (.leaf (by decide))
    · exact .failAt _ _
    · exact .failAt _ _
    · exact .failExpected _

private theorem propertyName : Brings room Script.propertyName (FitsAlone room) := by
  refine .past .get fun cursor => ?_
  split
  · exact .failExpected _
  · split
    · exact .leaf (by decide)
    · exact .failExpected _

private theorem functionName {needed : Bool} :
    Brings room (Script.functionName needed) fun name => ∀ draft ∈ name, FitsAlone room draft := by
  have named : Brings room (do return some (← Script.bindingName)) fun name =>
      ∀ draft ∈ name, FitsAlone room draft :=
    .map .bindingName fun _ => forall_mem_some
  refine .past .peek fun next => ?_
  split
  · exact named
  · exact .ite named (.pure (forall_mem_none _))

/-- A sequence fits on the level of its items. -/
theorem sequence {item : Reader Draft} (items : Brings room item (FitsAlone room)) :
    Brings room (Script.sequence item) (FitsAlone room) := by
  refine .past .here fun start => .bind (.commaSeparated items) fun drafts fit => ?_
  split
  · exact .pure (fit _ List.mem_cons_self)
  · exact .nodeIn (by decide) (.each fit (by decide) .nil)

end Names

end Brings

/-- So many levels are enough for what a phrase reads. -/
def Phrase.Fit : Phrase → Nat → Draft → Prop
  | .statement => FitsDeeper
  | .construction => Fits
  | .assignment | .binary _ _ | .unary => FitsAlone

/-- The levels that are left are enough for what each phrase reads. -/
def PhrasesFit (read : PhraseReader) : Prop :=
  ∀ room phrase, Brings room (read phrase) (phrase.Fit room)

namespace PhrasesFit

variable {read : PhraseReader} (phrases : PhrasesFit read) {room : Nat}

include phrases

section Functions

private theorem expression : Brings room (Script.expression read) (FitsAlone room) :=
  .sequence (phrases room .assignment)

private theorem parenthesized : Brings room (Script.parenthesized read) (FitsAlone room) :=
  .past .expectPunct fun _ => .bind phrases.expression fun _ fits => .past .expectPunct fun _ => .pure fits

private theorem propertyKey : Brings room (Script.propertyKey read) (FitsAlone room) := by
  refine .past .get fun cursor => ?_
  split
  · exact .failExpected _
  · split
    · exact .leaf (by decide)
    · exact .leaf (by decide)
    · exact .leaf (by decide)
    · refine .past .advance fun _ => .bind (phrases room .assignment) fun key fits => ?_
      exact .past .expectPunct fun _ => .pure fits
    · exact .failExpected _

private theorem statementInBraces : Brings room (Script.statementInBraces read) (FitsDeeper room) :=
  .past .atEnd fun _ => .ite (.failExpected _) (phrases room .statement)

private theorem block : Brings room (Script.block read) (FitsAlone room) := by
  refine .past .here fun start => .past .expectPunct fun _ => ?_
  refine .bind (.many .eatPunct phrases.statementInBraces) fun body fit => ?_
  exact .nodeIn (by decide) (.list (fun draft member => (fit draft member).fitsIn) .nil)

private theorem param : Brings room (Script.param read) (FitsAlone room) := by
  refine .past .here fun start => .past .eatPunct fun _ => .ite ?_ ?_
  · exact .bind .bindingName fun _ fits => .nodeIn (by decide) (.one (fits.held (by decide)) .nil)
  · refine .bind .bindingName fun left leftFits => .past .eatPunct fun _ => .ite ?_ (.pure leftFits)
    refine .bind (phrases room .assignment) fun right rightFits => .nodeIn (by decide) ?_
    exact .one (leftFits.held (by decide)) (.one (rightFits.held (by decide)) .nil)

private theorem params :
    Brings room (Script.params read) fun params => ∀ param ∈ params, FitsAlone room param :=
  .past .expectPunct fun _ => .list phrases.param

private theorem function {kind : String} {needsName : Bool} {deeper : String → Bool}
    (plain : ∀ field ∈ ["id", "params", "body"], holdsStatements kind field = false)
    (alike : deeper kind = false) :
    Brings room (Script.function read kind needsName) (FitsIn deeper room) := by
  have rest (start : Pos) : Brings room (do
      let id ← Script.functionName needsName
      let parameters ← Script.params read
      let body ← Script.block read
      Script.node kind start none
        [.single "id" id, .list "params" parameters, .single "body" body]) (FitsIn deeper room) := by
    refine .bind .functionName fun id idFits => .bind phrases.params fun params paramsFit => ?_
    refine .bind phrases.block fun body bodyFits => .nodeIn alike ?_
    refine .maybe idFits (plain _ (by simp)) ?_
    refine .each paramsFit (plain _ (by simp)) ?_
    exact .one (bodyFits.held (plain _ (by simp))) .nil
  refine .past .here fun start => .past .advance fun _ => .past .atPunct fun _ => ?_
  exact .ite (.past (.fail _) fun _ => rest start) (rest start)

private theorem method {kind : String} {start : Pos} {text : Option String} {key : Draft}
    (plain : ∀ field ∈ ["key", "params", "body"], holdsStatements kind field = false)
    (alike : isOperand kind = false) (keyFits : FitsAlone room key) :
    Brings room (Script.method read kind start text key) (FitsAlone room) := by
  refine .bind phrases.params fun params paramsFit => .bind phrases.block fun body bodyFits => ?_
  refine .nodeIn alike (.one (keyFits.held (plain _ (by simp))) ?_)
  refine .each paramsFit (plain _ (by simp)) ?_
  exact .one (bodyFits.held (plain _ (by simp))) .nil

end Functions

section Operands

private theorem argument : Brings room (Script.argument read) (FitsAlone room) := by
  refine .past .here fun start => .past .eatPunct fun _ => .ite ?_ (phrases room .assignment)
  refine .bind (phrases room .assignment) fun inner fits => ?_
  exact .nodeIn (by decide) (.one (fits.held (by decide)) .nil)

private theorem objectProperty {start : Pos} {keyToken : Option Token} {key : Draft}
    (keyFits : FitsAlone room key) :
    Brings room (Script.objectProperty read start keyToken key) (FitsAlone room) := by
  refine .past .atPunct fun _ => .ite (phrases.method (by decide) (by decide) keyFits) ?_
  refine .past .eatPunct fun _ => .ite ?_ ?_
  · refine .bind (phrases room .assignment) fun value valueFits => .nodeIn (by decide) ?_
    exact .one (keyFits.held (by decide)) (.one (valueFits.held (by decide)) .nil)
  · split
    · rename_i token
      split
      · have valueFits : FitsAlone room (leaf "Identifier" token) := fitsIn_leaf token (by decide)
        refine .ite (.failExpected _) (.nodeIn (by decide) ?_)
        exact .one (keyFits.held (by decide)) (.one (valueFits.held (by decide)) .nil)
      · exact .failExpected _
    · exact .failExpected _

private theorem objectMember : Brings room (Script.objectMember read) (FitsAlone room) := by
  refine .past .here fun start => .past .eatPunct fun _ => .ite ?_ ?_
  · refine .bind (phrases room .assignment) fun inner fits => ?_
    exact .nodeIn (by decide) (.one (fits.held (by decide)) .nil)
  · refine .past .get fun _ => .bind phrases.propertyKey fun key keyFits => ?_
    exact phrases.objectProperty keyFits

private theorem array {deeper : String → Bool} (alike : deeper "ArrayExpression" = false) :
    Brings room (Script.array read) (FitsIn deeper room) := by
  refine .past .here fun start => .past .advance fun _ => ?_
  refine .bind (.list phrases.argument) fun elements fit => ?_
  exact .nodeIn alike (.each fit (by decide) .nil)

private theorem object {deeper : String → Bool} (alike : deeper "ObjectExpression" = false) :
    Brings room (Script.object read) (FitsIn deeper room) := by
  refine .past .here fun start => .past .advance fun _ => ?_
  refine .bind (.list phrases.objectMember) fun properties fit => ?_
  exact .nodeIn alike (.each fit (by decide) .nil)

omit phrases in
private theorem constant {kind : String} {deeper : String → Bool} (alike : deeper kind = false) :
    Brings room (Script.constant kind) (FitsIn deeper room) :=
  .past .here fun _ => .past .advance fun _ => .nodeIn alike .nil

private theorem primary : Brings room (Script.primary read) (FitsConstructed room) := by
  refine .past .get fun cursor => ?_
  split
  · exact .failExpected _
  · split
    · exact .leaf (by decide)
    · exact .leaf (by decide)
    · exact .leaf (by decide)
    · exact .leaf (by decide)
    · exact constant (by decide)
    · exact constant (by decide)
    · exact phrases.function (by decide) (by decide)
    · exact .ite (.failExpected _) (.leaf (by decide))
    · exact phrases.parenthesized.mono fun _ fits => fits.constructed
    · exact phrases.array (by decide)
    · exact phrases.object (by decide)
    · exact .failExpected _

private theorem computedMember {start : Pos} {object : Draft} (objectFits : Fits room object) :
    Brings room (Script.computedMember read start object) (FitsConstructed room) := by
  refine .bind phrases.expression fun property fits => .past .expectPunct fun _ => .nodeIn (by decide) ?_
  exact .one (objectFits.shared (by decide) (by decide) (by decide)) (.one (fits.held (by decide)) .nil)

omit phrases in
private theorem namedMember {kind : String} {start : Pos} {object : Draft} (objectFits : Fits room object)
    (known : kind ∈ ["MemberExpression", "OptionalMemberExpression"]) :
    Brings room (Script.namedMember kind start object) (FitsConstructed room) := by
  have facts : ∀ kind ∈ ["MemberExpression", "OptionalMemberExpression"],
      holdsStatements kind "object" = false ∧ holdsStatements kind "property" = false ∧
        sharesOperand kind "object" = true ∧ kind ≠ "NewExpression" := by decide
  obtain ⟨plain, plainProperty, shares, noConstruction⟩ := facts kind known
  refine .bind .propertyName fun property fits => .nodeIn (decide_eq_false noConstruction) ?_
  exact .one (objectFits.shared plain shares noConstruction) (.one (fits.held plainProperty) .nil)

private theorem memberOrCall {start : Pos} {inner : Draft} (innerFits : Fits room inner) :
    Brings room (Script.memberOrCall read start inner) fun extended =>
      ∀ larger ∈ extended, Fits room larger := by
  have one (draft : Draft) (fits : FitsConstructed room draft) : ∀ larger ∈ some draft, Fits room larger :=
    forall_mem_some fits.fits
  refine .past .eatPunct fun _ => .ite (.map (namedMember innerFits (by decide)) one) ?_
  refine .past .eatPunct fun _ => .ite (.map ?_ one) ?_
  · exact .past .atPunct fun _ => .past .atPunct fun _ => .ite (.fail _) (namedMember innerFits (by decide))
  refine .past .eatPunct fun _ => .ite (.map (phrases.computedMember innerFits) one) ?_
  refine .past .eatPunct fun _ => .ite ?_ (.pure (forall_mem_none _))
  refine .bind (.list phrases.argument) fun arguments fit => .map (.nodeIn (by decide) ?_) one
  refine .one (innerFits.shared (by decide) (by decide) (by decide)) ?_
  exact .each fit (by decide) .nil

/-- Members and calls fit in the room that they are read with. -/
theorem chain : Brings room (Script.chain read) (Fits room) := by
  refine .past .here fun start => .past .atWord fun _ => ?_
  refine .join (phrases room .construction) (phrases.primary.mono fun _ fits => fits.fits) ?_
  exact fun inner => .grow fun _ => phrases.memberOrCall

private theorem constructedMember {start : Pos} {inner : Draft} (innerFits : FitsConstructed room inner) :
    Brings room (Script.constructedMember read start inner) fun extended =>
      ∀ larger ∈ extended, FitsConstructed room larger := by
  refine .past .eatPunct fun _ => .ite (.map (namedMember innerFits.fits (by decide)) ?_) ?_
  · exact fun _ => forall_mem_some
  refine .past .eatPunct fun _ => .ite (.map (phrases.computedMember innerFits.fits) ?_) ?_
  · exact fun _ => forall_mem_some
  · exact .pure (forall_mem_none _)

/-- A construction fits in the room that it is read with. -/
theorem construction : Brings room (Script.construction read) (Fits room) := by
  have deeper : Brings room (nested (read .construction)) (FitsConstructed room) :=
    .nested fun less same => (phrases less .construction).mono fun _ fits =>
      FitsDeeper.fitsIn ⟨less, same, fits⟩
  refine .past .here fun start => .past .advance fun _ => .past .atWord fun _ => ?_
  refine .join deeper phrases.primary fun inner innerFits => ?_
  refine .bind (.grow (fun _ => phrases.constructedMember) innerFits) fun callee calleeFits => ?_
  refine .past .eatPunct fun _ => ?_
  refine .join (.list phrases.argument) (.pure (List.forall_mem_nil _)) fun arguments fit => .node ?_
  exact .one calleeFits.callee (.each fit (by decide) .nil)

private theorem postfixed : Brings room (Script.postfixed read) (Fits room) := by
  refine .past .here fun start => .bind phrases.chain fun inner fits => .past .get fun cursor => ?_
  split
  · exact .pure fits
  · refine .past .advance fun _ => .node ?_
    exact .one (fits.shared (by decide) (by decide) (by decide)) .nil

/-- An operand with operators in front fits in the room that it is read with. -/
theorem unary : Brings room (Script.unary read) (Fits room) := by
  refine .past .here fun start => .past .peek fun next => ?_
  split
  · exact phrases.postfixed
  · rename_i kind operator leading
    have known : kind ∈ ["UnaryExpression", "UpdateExpression"] := by
      obtain ⟨token, -, leading⟩ := Option.bind_eq_some_iff.mp leading
      unfold leadingOperator? at leading
      split at leading <;> cases leading <;> decide
    have plain : ∀ kind ∈ ["UnaryExpression", "UpdateExpression"],
        holdsStatements kind "argument" = false := by decide
    refine .past .advance fun _ => .bind (phrases room .unary) fun inner fits => .node ?_
    exact .one (fits.held (plain kind known)) .nil

end Operands

section Operators

private theorem operation {start : Pos} {least : Nat} {allowIn : Bool} {left : Draft}
    (leftFits : FitsAlone room left) :
    Brings room (Script.operation read start least allowIn left) fun extended =>
      ∀ larger ∈ extended, FitsAlone room larger := by
  refine .past .peek fun next => ?_
  split
  · exact .pure (forall_mem_none _)
  · rename_i operator _
    have known : operator.nodeKind ∈ ["LogicalExpression", "BinaryExpression"] := by
      unfold Operator.nodeKind
      split <;> decide
    have facts : ∀ kind ∈ ["LogicalExpression", "BinaryExpression"], isOperand kind = false ∧
        holdsStatements kind "left" = false ∧ holdsStatements kind "right" = false := by decide
    obtain ⟨alike, plainLeft, plainRight⟩ := facts _ known
    refine .ite (.pure (forall_mem_none _)) (.past .advance fun _ => ?_)
    refine .bind (phrases room (.binary _ allowIn)) fun right rightFits => .map (.nodeIn alike ?_) ?_
    · exact .one (leftFits.held plainLeft) (.one (rightFits.held plainRight) .nil)
    · exact fun _ => forall_mem_some

private theorem binary {least : Nat} {allowIn : Bool} :
    Brings room (Script.binary read least allowIn) (FitsAlone room) :=
  .past .here fun _ => .bind (phrases room .unary) fun _ => .grow fun _ => phrases.operation

/-- A conditional expression fits on its own in the room that it is read with. -/
theorem conditional : Brings room (Script.conditional read) (FitsAlone room) := by
  refine .past .here fun start => .bind (phrases room (.binary 1 true)) fun test testFits => ?_
  refine .past .eatPunct fun _ => .ite ?_ (.pure testFits)
  refine .bind (phrases room .assignment) fun consequent consequentFits => .past .expectPunct fun _ => ?_
  refine .bind (phrases room .assignment) fun alternate alternateFits => .nodeIn (by decide) ?_
  refine .one (testFits.held (by decide)) (.one (consequentFits.held (by decide)) ?_)
  exact .one (alternateFits.held (by decide)) .nil

private theorem assignmentTo {start : Pos} {left : Draft} (leftFits : FitsAlone room left) :
    Brings room (Script.assignmentTo read start left) (FitsAlone room) := by
  refine .past .peek fun next => ?_
  split
  · exact .pure leftFits
  · refine .past .advance fun _ => .bind (phrases room .assignment) fun right rightFits => ?_
    exact .nodeIn (by decide) (.one (leftFits.held (by decide)) (.one (rightFits.held (by decide)) .nil))

/-- An arrow function fits on its own in the room that it is read with. -/
theorem arrow : Brings room (Script.arrow read) (FitsAlone room) := by
  have rest (start : Pos) (parameters : List Draft) (fit : ∀ param ∈ parameters, FitsAlone room param) :
      Brings room (do
        expectPunct "=>"
        let body ← if ← atPunct "\x7b" then Script.block read else read .assignment
        Script.node "ArrowFunctionExpression" start none
          [.list "params" parameters, .single "body" body]) (FitsAlone room) := by
    refine .past .expectPunct fun _ => .past .atPunct fun _ => ?_
    refine .join phrases.block (phrases room .assignment) fun body bodyFits => .nodeIn (by decide) ?_
    refine .each fit (by decide) ?_
    exact .one (bodyFits.held (by decide)) .nil
  refine .past .here fun start => .past .atPunct fun _ => .ite (.bind phrases.params (rest start)) ?_
  exact .wrap .bindingName fun param fits => rest start [param] (List.forall_mem_singleton.mpr fits)

/-- An assignment fits on its own in the room that it is read with. -/
theorem assignment : Brings room (Script.assignment read) (FitsAlone room) := by
  refine .past .get fun _ => .ite phrases.arrow (.past .here fun start => ?_)
  exact .bind phrases.conditional fun left fits => phrases.assignmentTo fits

private theorem headExpression : Brings room (Script.headExpression read) (FitsAlone room) :=
  .sequence (.past .here fun _ => .bind (phrases room (.binary 1 false)) fun _ fits =>
    phrases.assignmentTo fits)

end Operators

section Statements

private theorem declarator : Brings room (Script.declarator read) (FitsAlone room) := by
  refine .past .here fun start => .bind .bindingName fun id idFits => .past .eatPunct fun _ => ?_
  refine .optional (phrases room .assignment) fun init initFits => .nodeIn (by decide) ?_
  refine .one (idFits.held (by decide)) ?_
  exact .maybe initFits (by decide) .nil

private theorem declarators :
    Brings room (Script.declarators read) fun declared => ∀ draft ∈ declared.2, FitsAlone room draft := by
  refine .past .peek fun next => ?_
  split
  · exact .past .advance fun _ => .map (.commaSeparated phrases.declarator) fun _ fit => fit
  · exact .past .advance fun _ => .failExpected _

private theorem variableDeclaration : Brings room (Script.variableDeclaration read) (Fits room) := by
  refine .past .here fun start => .bind phrases.declarators fun declared fit => ?_
  refine .past .semicolon fun _ => .node ?_
  exact .each fit (by decide) .nil

private theorem ifStatement : Brings room (Script.ifStatement read) (Fits room) := by
  refine .past .here fun start => .past .advance fun _ => .bind phrases.parenthesized fun test testFits => ?_
  refine .bind (phrases room .statement) fun consequent consequentFits => .past .eatWord fun _ => ?_
  refine .optional (phrases room .statement) fun alternate alternateFits => .node ?_
  refine .one (testFits.held (by decide)) (.one consequentFits.fitsIn ?_)
  exact .optional (fun draft member => (alternateFits draft member).fitsIn) .nil

private theorem loopInit :
    Brings room (Script.loopInit read) fun init => ∀ draft ∈ init, FitsAlone room draft := by
  refine .past .atPunct fun _ => .ite (.pure (forall_mem_none _)) ?_
  refine .past .atWord fun _ => .past .atWord fun _ => .past .atWord fun _ => .ite ?_ ?_
  · refine .past .here fun _ => .bind phrases.declarators fun declared fit => ?_
    refine .map (.nodeIn (by decide) ?_) fun _ => forall_mem_some
    exact .each fit (by decide) .nil
  · exact .map phrases.headExpression fun _ => forall_mem_some

private theorem expressionUnless {punct : String} :
    Brings room (Script.expressionUnless read punct) fun part => ∀ draft ∈ part, FitsAlone room draft :=
  .past .atPunct fun _ => .ite (.pure (forall_mem_none _))
    (.map phrases.expression fun _ => forall_mem_some)

private theorem forStatement : Brings room (Script.forStatement read) (Fits room) := by
  have rest (start : Pos) (init : Option Draft) (initFits : ∀ draft ∈ init, FitsAlone room draft) :
      Brings room (do
        expectPunct ";"
        let test ← Script.expressionUnless read ";"
        expectPunct ";"
        let update ← Script.expressionUnless read ")"
        expectPunct ")"
        let body ← read .statement
        Script.node "ForStatement" start none [.single "init" init, .single "test" test,
          .single "update" update, .single "body" body]) (Fits room) := by
    refine .past .expectPunct fun _ => .bind phrases.expressionUnless fun test testFits => ?_
    refine .past .expectPunct fun _ => .bind phrases.expressionUnless fun update updateFits => ?_
    refine .past .expectPunct fun _ => .bind (phrases room .statement) fun body bodyFits => .node ?_
    refine .maybe initFits (by decide) ?_
    refine .maybe testFits (by decide) ?_
    refine .maybe updateFits (by decide) ?_
    exact .one bodyFits.fitsIn .nil
  refine .past .here fun start => .past .advance fun _ => .past .expectPunct fun _ => ?_
  refine .bind phrases.loopInit fun init fits => .past .atWord fun _ => .past .atWord fun _ => ?_
  exact .ite (.past (.fail _) fun _ => rest start init fits) (rest start init fits)

private theorem whileStatement : Brings room (Script.whileStatement read) (Fits room) := by
  refine .past .here fun start => .past .advance fun _ => .bind phrases.parenthesized fun test testFits => ?_
  refine .bind (phrases room .statement) fun body bodyFits => .node ?_
  exact .one (testFits.held (by decide)) (.one bodyFits.fitsIn .nil)

private theorem doWhileStatement : Brings room (Script.doWhileStatement read) (Fits room) := by
  have rest (start : Pos) (body : Draft) (bodyFits : FitsDeeper room body) : Brings room (do
      let test ← Script.parenthesized read
      discard (eatPunct ";")
      Script.node "DoWhileStatement" start none [.single "test" test, .single "body" body])
      (Fits room) := by
    refine .bind phrases.parenthesized fun test testFits => .past (.map .eatPunct) fun _ => .node ?_
    exact .one (testFits.held (by decide)) (.one bodyFits.fitsIn .nil)
  refine .past .here fun start => .past .advance fun _ => ?_
  refine .bind (phrases room .statement) fun body fits => .past .eatWord fun _ => ?_
  exact .ite (.past .failExpected fun _ => rest start body fits) (rest start body fits)

private theorem returnedValue :
    Brings room (Script.returnedValue read) fun part => ∀ draft ∈ part, FitsAlone room draft := by
  refine .past .get fun cursor => ?_
  split
  · exact .pure (forall_mem_none _)
  · exact .ite (.pure (forall_mem_none _)) (.map phrases.expression fun _ => forall_mem_some)

private theorem returnStatement : Brings room (Script.returnStatement read) (Fits room) := by
  refine .past .here fun start => .past .advance fun _ => .bind phrases.returnedValue fun value fits => ?_
  refine .past .semicolon fun _ => .node ?_
  exact .maybe fits (by decide) .nil

private theorem throwStatement : Brings room (Script.throwStatement read) (Fits room) := by
  refine .past .here fun start => .past .advance fun _ => .bind phrases.expression fun value fits => ?_
  exact .past .semicolon fun _ => .node (.one (fits.held (by decide)) .nil)

omit phrases in
private theorem jumpStatement {kind : String} : Brings room (Script.jumpStatement kind) (Fits room) := by
  refine .past .here fun start => .past .advance fun _ => .past .noLabel fun _ => ?_
  exact .past .semicolon fun _ => .node .nil

private theorem handler :
    Brings room (Script.handler read) fun handler => ∀ draft ∈ handler, FitsAlone room draft := by
  have rest (start : Pos) (param : Option Draft) (paramFits : ∀ draft ∈ param, FitsAlone room draft) :
      Brings room (do
        let body ← Script.block read
        return some (← Script.node "CatchClause" start none
          [.single "param" param, .single "body" body]))
        fun handler => ∀ draft ∈ handler, FitsAlone room draft := by
    refine .bind phrases.block fun body bodyFits => .map (.nodeIn (by decide) ?_) fun _ => forall_mem_some
    refine .maybe paramFits (by decide) ?_
    exact .one (bodyFits.held (by decide)) .nil
  refine .past .here fun start => .past .eatWord fun _ => .ite ?_ (.pure (forall_mem_none _))
  refine .past .eatPunct fun _ => .ite ?_ (.bind (.pure (forall_mem_none _)) (rest start))
  refine .bind .bindingName fun name fits => .wrap (.of_assembled .expectPunct) fun _ _ => ?_
  exact rest start _ (forall_mem_some fits)

private theorem tryStatement : Brings room (Script.tryStatement read) (Fits room) := by
  refine .past .here fun start => .past .advance fun _ => .bind phrases.block fun body bodyFits => ?_
  refine .bind phrases.handler fun handler handlerFits => .past .eatWord fun _ => ?_
  refine .optional phrases.block fun finalizer finalizerFits => ?_
  have fit : FieldsFit room "TryStatement" [.single "block" (some body), .single "handler" handler,
      .single "finalizer" finalizer] := by
    refine .one (bodyFits.held (by decide)) ?_
    refine .maybe handlerFits (by decide) ?_
    exact .maybe finalizerFits (by decide) .nil
  exact .ite (.past .failExpected fun _ => .node fit) (.node fit)

private theorem caseTest :
    Brings room (Script.caseTest read) fun test => ∀ draft ∈ test, FitsAlone room draft := by
  refine .past .eatWord fun _ => .ite (.map phrases.expression fun _ => forall_mem_some) ?_
  exact .past .eatWord fun _ => .ite (.pure (forall_mem_none _)) (.failExpected _)

private theorem switchCase : Brings room (Script.switchCase read) (FitsAlone room) := by
  refine .past .here fun start => .bind phrases.caseTest fun test testFits => .past .expectPunct fun _ => ?_
  refine .bind (.many .atCaseEnd phrases.statementInBraces) fun consequent fit => .nodeIn (by decide) ?_
  refine .maybe testFits (by decide) ?_
  exact .list (fun draft member => (fit draft member).fitsIn) .nil

private theorem switchStatement : Brings room (Script.switchStatement read) (Fits room) := by
  refine .past .here fun start => .past .advance fun _ => .bind phrases.parenthesized fun value fits => ?_
  refine .past .expectPunct fun _ => .bind (.many .eatPunct phrases.switchCase) fun cases fit => .node ?_
  refine .one (fits.held (by decide)) ?_
  exact .each fit (by decide) .nil

private theorem classMember : Brings room (Script.classMember read) (FitsAlone room) := by
  have rest (start : Pos) (text : Option String) : Brings room (do
      let key ← Script.propertyKey read
      if ← atPunct "(" then
        Script.method read "ClassMethod" start text key
      else
        let value ← if ← eatPunct "=" then Pure.pure (some (← read .assignment)) else Pure.pure none
        semicolon
        Script.node "ClassProperty" start text [.single "key" key, .single "value" value])
      (FitsAlone room) := by
    refine .bind phrases.propertyKey fun key keyFits => .past .atPunct fun _ => ?_
    refine .ite (phrases.method (by decide) (by decide) keyFits) (.past .eatPunct fun _ => ?_)
    refine .optional (phrases room .assignment) fun value valueFits => .past .semicolon fun _ => ?_
    refine .nodeIn (by decide) (.one (keyFits.held (by decide)) ?_)
    exact .maybe valueFits (by decide) .nil
  refine .past .here fun start => .past .get fun cursor => ?_
  exact .ite (.past .advance fun _ => rest start _) (rest start _)

private theorem classItem :
    Brings room (Script.classItem read) fun item => ∀ draft ∈ item, FitsAlone room draft :=
  .past .eatPunct fun _ => .ite (.pure (forall_mem_none _))
    (.map phrases.classMember fun _ => forall_mem_some)

private theorem classBody : Brings room (Script.classBody read) (FitsAlone room) := by
  refine .past .here fun start => .past .expectPunct fun _ => ?_
  refine .bind (.many .eatPunct phrases.classItem) fun items fit => .nodeIn (by decide) (.list ?_ .nil)
  intro draft member
  obtain ⟨item, known, same⟩ := List.mem_filterMap.mp member
  exact (fit item known draft same).held (by decide)

private theorem classDeclaration : Brings room (Script.classDeclaration read) (Fits room) := by
  refine .past .here fun start => .past .advance fun _ => .bind .bindingName fun id idFits => ?_
  refine .past .eatWord fun _ => .optional phrases.chain fun superClass superFits => ?_
  refine .bind phrases.classBody fun body bodyFits => .node (.one (idFits.held (by decide)) ?_)
  refine .optional (fun draft member => ?_) ?_
  · exact (superFits draft member).shared (by decide) (by decide) (by decide)
  exact .one (bodyFits.held (by decide)) .nil

private theorem expressionStatement : Brings room (Script.expressionStatement read) (Fits room) := by
  refine .past .here fun start => .bind phrases.expression fun inner fits => ?_
  exact .past .semicolon fun _ => .node (.one (fits.held (by decide)) .nil)

/-- A statement fits in the room that it is read with. -/
theorem statement : Brings room (Script.statement read) (Fits room) := by
  refine .past .here fun start => .past .peek fun next => ?_
  split
  · exact .failExpected _
  · exact phrases.block.mono fun _ fits => fits.fits
  · exact (constant (by decide)).mono fun _ (fits : FitsAlone _ _) => fits.fits
  · exact (phrases.function (by decide) (by decide)).mono fun _ (fits : FitsAlone _ _) => fits.fits
  · exact phrases.classDeclaration
  · exact phrases.variableDeclaration
  · exact phrases.variableDeclaration
  · exact .past .get fun _ => .ite phrases.variableDeclaration phrases.expressionStatement
  · exact phrases.ifStatement
  · exact phrases.forStatement
  · exact phrases.whileStatement
  · exact phrases.doWhileStatement
  · exact phrases.returnStatement
  · exact phrases.throwStatement
  · exact jumpStatement
  · exact jumpStatement
  · exact phrases.tryStatement
  · exact phrases.switchStatement
  · exact .failAt _ _
  · exact .failAt _ _
  · exact phrases.expressionStatement

private theorem production (phrase : Phrase) : Brings room (phrase.production read) (phrase.Fit room) := by
  cases phrase with
  | statement => exact .nested fun less same => phrases.statement.mono fun _ fits => ⟨less, same, fits⟩
  | assignment => exact phrases.assignment
  | binary least allowIn => exact phrases.binary
  | unary =>
    exact .nested fun less same => phrases.unary.mono fun _ fits => FitsDeeper.fitsIn ⟨less, same, fits⟩
  | construction => exact phrases.construction

private theorem program : Brings room (Script.program read) (Fits room) := by
  refine .bind (.many .atEnd (phrases room .statement)) fun body fit => .past .get fun cursor => ?_
  exact .pure (FieldsFit.branch (.list (fun draft member => (fit draft member).fitsIn) .nil))

end Statements

end PhrasesFit

private theorem readWithin_fits (limit : Nat) : PhrasesFit (readWithin limit) := by
  induction limit with
  | zero => exact fun _ _ => .fail .stalled
  | succ limit ih => exact fun _ phrase => ih.production phrase

/-- The levels that there are are enough for the draft of a source. -/
theorem parse_fits {source : String} {draft : Draft} (parsed : parse source = .ok draft) :
    Fits maxDepth draft := by
  unfold parse at parsed
  simp only at parsed
  split at parsed
  · cases parsed
  · unfold parseTokens at parsed
    split at parsed
    · rename_i read
      cases parsed
      exact ((readWithin_fits _).program _ _ _ (Nat.zero_add maxDepth) read).2
    · cases parsed

end SyntaxNav.Script
