import SyntaxNav.Proofs.Script.Balance
import SyntaxNav.Proofs.Script.SpanGeometry

/-! # Nodes lie over balanced runs of tokens

Covered tokens are matched: every bracket has its partner. Each draft among those that cover them lies
over a run of the tokens, from the first of which it starts and with the last of which it ends, and the
tokens in the run are matched as well as those around it. The tokens follow one another, so the run is
made of just the tokens that lie within the span of the draft.
-/

namespace SyntaxNav.Script

/-- Tokens in which every bracket has its partner. -/
abbrev Matched (kinds : List TokenKind) : Prop := Balanced (fun _ => True) kinds

section Kinds

variable {kind : TokenKind}

private theorem TokenKind.not_bracket_of_mark (isMark : kind.isMark = true) : kind.isBracket = false := by
  cases kind with
  | word | number | string => rfl
  | punct text =>
    simp only [TokenKind.isMark, Bool.and_eq_true, Bool.not_eq_true'] at isMark
    rw [isBracket, isMark.1, isMark.2]
    rfl

private theorem TokenKind.not_bracket_of_makes {leafKind : String} (makes : kind.makes leafKind = true) :
    kind.isBracket = false := by
  cases kind with
  | word | number | string => rfl
  | punct text => cases makes

/-- A token that is no bracket is matched. -/
theorem Matched.single (plain : kind.isBracket = false) : Matched [kind] :=
  .token trivial plain .nil

end Kinds

variable {tokens inner left right : List Token} {drafts : List Draft} {label : Label} {token : Token}

/-- The tokens that drafts cover are matched. -/
theorem Covers.matched (covers : Covers tokens drafts) : Matched (tokens.map (·.kind)) := by
  induction covers with
  | nil => exact .nil
  | mark isMark _ ih => exact .token trivial (TokenKind.not_bracket_of_mark isMark) ih
  | brackets pair opens closes _ _ ihInner ihRest =>
    rw [List.map_cons, List.map_append, List.map_cons, opens, closes]
    exact .pair pair ihInner ihRest
  | leaf makes _ ih => exact .token trivial (TokenKind.not_bracket_of_makes makes) ih
  | branch _ _ _ _ _ ihInner ihRest =>
    rw [List.map_append]
    exact ihInner.append ihRest
  | loop _ _ _ isMark _ _ ihFront ihBack ihRest =>
    rw [List.map_append, List.map_append, List.map_cons]
    have turned := Balanced.token trivial (TokenKind.not_bracket_of_mark isMark) ihBack
    exact (ihFront.append turned).append ihRest
  | shorthand word _ _ ih =>
    rw [List.map_cons, word]
    exact .token trivial rfl ih

/-- A label spans a run of tokens that is matched, and so are the tokens around it. -/
structure SpansRun (label : Label) (before run after : List Token) : Prop where
  inside : Matched (run.map (·.kind))
  outside : Matched ((before ++ after).map (·.kind))
  ends : ∃ first last, run.head? = some first ∧ run.getLast? = some last ∧
    label.span = some ⟨first.span.start, last.span.stop⟩

/-- A label spans a run among tokens. -/
def LiesOver (label : Label) (tokens : List Token) : Prop :=
  ∃ before run after, tokens = before ++ run ++ after ∧ SpansRun label before run after

namespace LiesOver

/-- Tokens may be put around the tokens that a label lies over, if this keeps them matched. -/
theorem around (lies : LiesOver label inner)
    (keeps : ∀ middle, Matched (middle.map (·.kind)) → Matched ((left ++ middle ++ right).map (·.kind))) :
    LiesOver label (left ++ inner ++ right) := by
  obtain ⟨before, run, after, rfl, inside, outside, ends⟩ := lies
  refine ⟨left ++ before, run, after ++ right, by simp, inside, ?_, ends⟩
  have kept := keeps _ outside
  rwa [← List.append_assoc left, List.append_assoc] at kept

/-- A run may have matched tokens put in front of it. -/
theorem behind (lies : LiesOver label tokens) (matched : Matched (left.map (·.kind))) :
    LiesOver label (left ++ tokens) := by
  have kept : LiesOver label (left ++ tokens ++ []) := by
    apply lies.around
    intro middle inside
    rw [List.append_nil, List.map_append]
    exact matched.append inside
  rwa [List.append_nil] at kept

private theorem cons (lies : LiesOver label tokens) (plain : token.kind.isBracket = false) :
    LiesOver label (token :: tokens) :=
  have matched : Matched ([token].map (·.kind)) := .single plain
  lies.behind matched

/-- A run may have matched tokens put behind it. -/
theorem before (lies : LiesOver label tokens) (matched : Matched (right.map (·.kind))) :
    LiesOver label (tokens ++ right) := by
  have kept : LiesOver label ([] ++ tokens ++ right) := by
    apply lies.around
    intro middle inside
    rw [List.nil_append, List.map_append]
    exact inside.append matched
  rwa [List.nil_append] at kept

/-- A label that spans all of some matched tokens lies over them. -/
theorem whole {first last : Token} (matched : Matched (tokens.map (·.kind)))
    (head : tokens.head? = some first) (final : tokens.getLast? = some last)
    (spanned : label.span = some ⟨first.span.start, last.span.stop⟩) : LiesOver label tokens :=
  ⟨[], tokens, [], by simp, matched, .nil, first, last, head, final, spanned⟩

/-- The label of a plain token lies over it. -/
theorem single (plain : token.kind.isBracket = false) (spanned : label.span = some token.span) :
    LiesOver label [token] :=
  whole (.single plain) rfl rfl spanned

end LiesOver

/-- A draft and all drafts in it lie over tokens. -/
abbrev AllLieOver (draft : Draft) (tokens : List Token) : Prop :=
  draft.Everywhere fun inner => LiesOver inner.label tokens

private theorem leaf_liesOver (kind : String) (plain : token.kind.isBracket = false) :
    AllLieOver (leaf kind token) [token] :=
  SlotTree.everywhere_node (.single plain rfl) nofun

/-- Every draft among those that cover tokens lies over a run of them. -/
theorem Covers.liesOver (covers : Covers tokens drafts) : ∀ draft ∈ drafts, AllLieOver draft tokens := by
  induction covers with
  | nil => exact nofun
  | @mark token tokens _ isMark _ ih =>
    intro draft member node occurs
    exact (ih draft member node occurs).cons (TokenKind.not_bracket_of_mark isMark)
  | @brackets opening closing _ _ inner tokens _ _ pair opens closes inner' rest ihInner ihRest =>
    have bracketed (middle : List Token) (matched : Matched (middle.map (·.kind))) :
        Matched ((opening :: (middle ++ [closing])).map (·.kind)) := by
      rw [List.map_cons, List.map_append, List.map_singleton, opens, closes]
      exact .pair pair matched .nil
    intro draft member node occurs
    rcases List.mem_append.mp member with member | member
    · have enclosed : LiesOver node.label ([opening] ++ inner ++ [closing]) :=
        (ihInner draft member node occurs).around bracketed
      simpa using enclosed.before rest.matched
    · have behind := (ihRest draft member node occurs).behind (bracketed inner inner'.matched)
      simpa using behind
  | @leaf _ token tokens _ makes rest ih =>
    have plain := TokenKind.not_bracket_of_makes makes
    refine List.forall_mem_cons.mpr ⟨?_, ?_⟩
    · intro node occurs
      exact (leaf_liesOver _ plain node occurs).before rest.matched
    · intro draft member node occurs
      exact (ih draft member node occurs).cons plain
  | @branch _ _ fields _ _ inner tokens _ _ head final below rest ihInner ihRest =>
    refine List.forall_mem_cons.mpr ⟨SlotTree.everywhere_node ?_ ?_, ?_⟩
    · exact (LiesOver.whole below.matched head final rfl).before rest.matched
    · rw [Field.map_snd_spread]
      intro child member node occurs
      exact (ihInner child member node occurs).before rest.matched
    · intro draft member node occurs
      exact (ihRest draft member node occurs).behind below.matched
  | @loop test body _ _ turn front back tokens _ head final front' isMark back' rest ihFront ihBack
      ihRest =>
    have plain := TokenKind.not_bracket_of_mark isMark
    have turned : Matched ((turn :: back).map (·.kind)) := .token trivial plain back'.matched
    have matched : Matched ((front ++ turn :: back).map (·.kind)) := by
      rw [List.map_append]
      exact front'.matched.append turned
    have bodyLies : AllLieOver body (front ++ turn :: back ++ tokens) := by
      intro node occurs
      exact ((ihFront body List.mem_cons_self node occurs).before turned).before rest.matched
    have testLies : AllLieOver test (front ++ turn :: back ++ tokens) := by
      intro node occurs
      have behind := (ihBack test List.mem_cons_self node occurs).cons plain
      exact (behind.behind front'.matched).before rest.matched
    refine List.forall_mem_cons.mpr ⟨SlotTree.everywhere_node ?_ ?_, ?_⟩
    · exact (LiesOver.whole matched head final rfl).before rest.matched
    · exact List.forall_mem_cons.mpr ⟨testLies, List.forall_mem_cons.mpr ⟨bodyLies, nofun⟩⟩
    · intro draft member node occurs
      exact (ihRest draft member node occurs).behind matched
  | @shorthand name token tokens _ word _ rest ih =>
    have plain : token.kind.isBracket = false := by rw [word]; rfl
    have property : AllLieOver (.branch ⟨"ObjectProperty", some token.span, some "shorthand"⟩
        [.single "key" (Script.leaf "Identifier" token),
          .single "value" (Script.leaf "Identifier" token)]) [token] := by
      have isLeaf := leaf_liesOver "Identifier" plain
      refine SlotTree.everywhere_node (LiesOver.single plain rfl) ?_
      exact List.forall_mem_cons.mpr ⟨isLeaf, List.forall_mem_cons.mpr ⟨isLeaf, nofun⟩⟩
    refine List.forall_mem_cons.mpr ⟨?_, ?_⟩
    · intro node occurs
      exact (property node occurs).before rest.matched
    · intro draft member node occurs
      exact (ih draft member node occurs).cons plain

def Token.liesIn (span : Span) (token : Token) : Bool :=
  span.start ≤ token.span.start && token.span.stop ≤ span.stop

/-- The run that a label spans is made of just the tokens within its span. -/
theorem SpansRun.run_eq_filter {before run after : List Token} {first last : Pos} {span : Span}
    (spans : SpansRun label before run after) (spanned : label.span = some span)
    (between : SpansBetween first ((before ++ run ++ after).map (·.span)) last) :
    run = (before ++ run ++ after).filter (Token.liesIn span) := by
  obtain ⟨front, back, head, final, same⟩ := spans.ends
  obtain rfl : ⟨front.span.start, back.span.stop⟩ = span := Option.some.inj (same.symm.trans spanned)
  rw [List.append_assoc, List.map_append] at between
  obtain ⟨middle, early, late⟩ := SpansBetween.append_iff.mp between
  obtain ⟨inside, enters, -, behind⟩ := between_branch head final late
  have noneBefore : before.filter (Token.liesIn ⟨front.span.start, back.span.stop⟩) = [] := by
    rw [List.filter_eq_nil_iff]
    intro token member within
    obtain ⟨-, nonempty, ends⟩ := early.enclosed token.span (List.mem_map_of_mem member)
    simp only [Token.liesIn, Bool.and_eq_true, decide_eq_true_eq] at within
    exact absurd (lt_of_lt_of_le nonempty (le_trans ends enters)) (not_lt.mpr within.1)
  have noneBehind : after.filter (Token.liesIn ⟨front.span.start, back.span.stop⟩) = [] := by
    rw [List.filter_eq_nil_iff]
    intro token member within
    obtain ⟨starts, nonempty, -⟩ := behind.enclosed token.span (List.mem_map_of_mem member)
    simp only [Token.liesIn, Bool.and_eq_true, decide_eq_true_eq] at within
    exact absurd (lt_of_le_of_lt starts nonempty) (not_lt.mpr within.2)
  have allInside : run.filter (Token.liesIn ⟨front.span.start, back.span.stop⟩) = run := by
    rw [List.filter_eq_self]
    intro token member
    obtain ⟨starts, -, ends⟩ := inside.enclosed token.span (List.mem_map_of_mem member)
    simp only [Token.liesIn, Bool.and_eq_true, decide_eq_true_eq]
    exact ⟨starts, ends⟩
  rw [List.filter_append, List.filter_append, noneBefore, noneBehind, allInside, List.nil_append,
    List.append_nil]

end SyntaxNav.Script
