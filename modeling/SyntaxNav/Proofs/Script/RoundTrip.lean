import SyntaxNav.Proofs.Script.RereadPrograms
import SyntaxNav.Proofs.Script.TokenLeaves

/-! # Parsing undoes printing

What is printed for the tree of a script parses to a tree with the same kinds, texts and slots, unless the
parentheses that were added are nested too deep. Every printed token is a mark or a token of the script,
so it is scanned as it was; then the tokens are read back one form after another.
-/

namespace SyntaxNav.Script

section Scanning

/-- Whether a token is read back from its own text. -/
def isReread (kind : TokenKind) : Bool :=
  match kind.text.toList with
  | [] => false
  | c :: more => (readToken c more).toOption = some kind && gapLength (c :: more) = 0

/-- A token that is read back from its text can be written among others. -/
theorem legible_of_reread {kind : TokenKind} (reread : isReread kind = true) : Legible kind := by
  unfold isReread at reread
  split at reread
  · cases reread
  · rename_i c more text
    obtain ⟨read, noGap⟩ := Bool.and_eq_true_iff.mp reread
    refine ⟨c, more, [], ?_, text, ?_⟩
    · rw [List.append_nil]
      apply readToken_eq_ok_iff.mp
      have found := of_decide_eq_true read
      cases result : readToken c more with
      | error fault =>
        rw [result] at found
        cases found
      | ok other =>
        rw [result] at found
        cases found
        rfl
    · rw [List.append_nil]
      exact of_decide_eq_true noGap

private theorem words_reread :
    (keywords ++ ["let", "static"]).all (fun text => isReread (.word text)) = true := by
  decide +kernel

private theorem punctuators_reread : punctuators.all (fun text => isReread (.punct text)) = true := by
  decide +kernel

private theorem legible_of_printed {kind : TokenKind} (printed : kind.isPrinted = true) : Legible kind := by
  apply legible_of_reread
  cases kind with
  | number _ | string _ => cases printed
  | word text =>
    have listed : text ∈ keywords ++ ["let", "static"] := by
      simpa [TokenKind.isPrinted, isKeyword, or_assoc] using printed
    exact List.all_eq_true.mp words_reread text listed
  | punct text =>
    have listed := List.contains_iff_mem.mp (Bool.and_eq_true_iff.mp printed).1
    exact List.all_eq_true.mp punctuators_reread text listed

private theorem legible_brackets :
    ∀ pair ∈ bracketPairs, Legible (.punct pair.1) ∧ Legible (.punct pair.2) := by
  have listed : ∀ pair ∈ bracketPairs, pair.1 ∈ punctuators ∧ pair.2 ∈ punctuators := by decide
  intro pair member
  obtain ⟨first, second⟩ := listed pair member
  constructor
  · exact legible_of_reread (List.all_eq_true.mp punctuators_reread _ first)
  · exact legible_of_reread (List.all_eq_true.mp punctuators_reread _ second)

variable {kinds : List TokenKind}

private theorem spaced_cons (kind : TokenKind) (kinds : List TokenKind) :
    (spaced (kind :: kinds)).toList = kind.text.toList ++ respace (kinds.map written) := by
  induction kinds generalizing kind with
  | nil => simp [spaced, respace]
  | cons second kinds ih =>
    have rest := ih second
    simp only [spaced, String.toList_intercalate, List.map_cons] at rest ⊢
    have blank : (written second).blank = ' ' := rfl
    have text : (written second).kind = second := rfl
    rw [respace_cons, List.intercalate_cons_cons, rest, blank, text]
    simp

/-- Legible tokens with single spaces between them are scanned as they are written. -/
theorem scans_spaced (legible : ∀ kind ∈ kinds, Legible kind) :
    ∃ tokens, Scans .origin (spaced kinds).toList tokens ∧
      tokens.map Token.content = (kinds.map written).map Token.content := by
  cases kinds with
  | nil => exact ⟨[], .done (by simp [spaced, gapLength]), rfl⟩
  | cons kind kinds =>
    obtain ⟨⟨c, more, rest, tokenAt, text, noGap⟩, later⟩ := List.forall_mem_cons.mp legible
    have others : ∀ token ∈ kinds.map written, Legible token.kind := by
      simpa [written] using later
    obtain ⟨tokens, scans, same⟩ := scans_respace others (Pos.origin.after (c :: more))
    have separated := respace_separated (kinds.map written)
    have noGapAgain : gapLength ([] ++ c :: (more ++ respace (kinds.map written))) = 0 :=
      gapLength_separated tokenAt noGap separated
    have read := readToken_eq_ok_iff.mpr (tokenAt.separated text separated)
    rw [spaced_cons, text]
    refine ⟨_, .token noGapAgain read text scans, ?_⟩
    rw [List.map_cons, List.map_cons, List.map_cons, same]
    rfl

end Scanning

section Drafts

variable {draft : Draft}

private theorem kind_flat (draft : Draft) : (flat draft).label.kind = draft.label.kind := by
  rw [flat, Draft.relocate, SlotTree.label_relabel]
  rfl

private theorem flat_flat (draft : Draft) : flat (flat draft) = flat draft := by
  rw [flat, flat, Draft.relocate, Draft.relocate, SlotTree.relabel_relabel]
  congr 1
  funext label
  obtain ⟨kind, span, text⟩ := label
  cases span <;> rfl

/-- What is written for a draft does not depend on positions. -/
theorem tokensOf_flat (draft : Draft) : tokensOf (flat draft) = tokensOf draft := by
  induction draft using SlotTree.induct with
  | step label children ih =>
    have pieces : piecesOf (children.map fun child =>
        (child.1, child.2.relabel (Label.relocate nowhere))) = piecesOf children := by
      rw [piecesOf_eq_map, piecesOf_eq_map, List.map_map]
      apply List.map_congr_left
      intro child member
      have kind := kind_flat child.2
      have tokens := ih child member
      rw [flat, Draft.relocate] at kind tokens
      simp only [Function.comp_apply, pieceOf, kind, tokens]
    rw [flat, Draft.relocate, SlotTree.relabel_node, tokensOf, tokensOf, pieces]
    rfl

/-- A token is written for the leaf that it makes. -/
theorem tokensOf_leaf {kind : String} {token : Token} (makes : token.kind.makes kind = true) :
    tokensOf (leaf kind token) = [token.kind] := by
  obtain ⟨tokenKind, span, newlineBefore⟩ := token
  cases tokenKind with
  | word text =>
    rcases Bool.or_eq_true_iff.mp makes with isName | isBoolean
    · rw [of_decide_eq_true isName]
      rfl
    · rw [of_decide_eq_true (Bool.and_eq_true_iff.mp isBoolean).1]
      rfl
  | number text | string text =>
    rw [of_decide_eq_true makes]
    rfl
  | punct text => cases makes

/-- What holds of all trees inside a draft holds of those inside the draft without positions. -/
theorem everywhere_flat {holds : Draft → Prop}
    (everywhere : draft.Everywhere fun inner => holds (flat inner)) :
    (flat draft).Everywhere holds := by
  intro inner occurs
  rw [← SlotTree.mem_subtrees_iff, flat, Draft.relocate, SlotTree.subtrees_relabel] at occurs
  obtain ⟨original, member, rfl⟩ := List.mem_map.mp occurs
  exact everywhere original (SlotTree.mem_subtrees_iff.mp member)

/-- The tokens that are written for the draft of a source can be scanned. -/
theorem legible_tokensOf {source : String} (parsed : parse source = .ok draft) {body : List Draft}
    (whole : flat draft = tree "Program" none [.list "body" body])
    (formed : ∀ draft ∈ body, Formed .statement draft) : ∀ kind ∈ tokensOf draft, Legible kind := by
  obtain ⟨-, scans, -⟩ := parse_covers_scan parsed
  have leaves : (flat draft).Everywhere (LeafFine Legible) := by
    apply everywhere_flat
    intro inner occurs isLeaf kind member
    rw [kind_flat] at isLeaf
    obtain ⟨token, allowed, makes, same⟩ := (parse_traced parsed inner occurs).leaf isLeaf
    rw [tokensOf_flat, same, tokensOf_leaf makes, List.mem_singleton] at member
    rw [member]
    exact scans.legible token allowed
  have marks (kind : TokenKind) (printed : kind.isPrinted = true) : Legible kind :=
    legible_of_printed printed
  have balanced : Balanced Legible (tokensOf (flat draft)) := by
    rw [whole] at leaves ⊢
    apply balanced_tree marks .nil _ leaves
    simpa using fun draft member => (formed draft member).balanced marks
  rw [← tokensOf_flat]
  exact balanced.all legible_brackets

end Drafts

/-- What is printed for a parsed draft parses as the draft, or is nested too deep. -/
theorem parse_spaced {source : String} {draft : Draft} (parsed : parse source = .ok draft) :
    unplaced (parse (spaced (tokensOf draft))) = unplaced (parse source) ∨
      ∃ error, parse (spaced (tokensOf draft)) = .error error ∧ error.fault = .tooDeep := by
  have clean := scan_of_parse parsed
  rw [parse_of_scan clean] at parsed
  obtain ⟨body, whole, formed⟩ := parseTokens_forms parsed
  rw [← parse_of_scan clean] at parsed
  obtain ⟨tokens, scans, same⟩ := scans_spaced (legible_tokensOf parsed whole formed)
  have scanned : scan (spaced (tokensOf draft)).toList = ⟨tokens, none⟩ := scans.scanFrom_eq
  have cleanAgain : (scan (spaced (tokensOf draft)).toList).error = none := by rw [scanned]
  have alike : unplaced (parse (spaced (tokensOf draft))) =
      unplaced (parseTokens ((tokensOf draft).map written) .origin) := by
    rw [parse_of_scan cleanAgain, scanned]
    exact parseTokens_of_content same _ _
  -- From here on only the contents of tokens matter, and those are the written ones.
  have reread := parseTokens_written formed
  rw [← whole, tokensOf_flat] at reread
  rcases reread with again | ⟨error, failed, deep⟩
  · left
    rw [alike, again, parsed]
    exact congrArg Except.ok (flat_flat draft)
  · right
    rw [failed] at alike
    cases result : parse (spaced (tokensOf draft)) with
    | ok again =>
      rw [result] at alike
      cases alike
    | error other =>
      rw [result] at alike
      have sameError : other.relocate nowhere = error.relocate nowhere := Except.error.inj alike
      have sameFault : other.fault = error.fault := congrArg (·.fault) sameError
      exact ⟨other, rfl, sameFault.trans deep⟩

/-- What is printed for the tree of a script parses to a tree with the same kinds, texts and slots, or it
is nested too deep. -/
theorem parse_print (id otherId : TreeId) (source : String) (tree : Tree)
    (parsed : (language.parse id source).value = .ok tree) :
    (∃ again, (language.parse otherId tree.print).value = .ok again ∧ again.content = tree.content) ∨
      ∃ error, (language.parse otherId tree.print).value = .error (.malformed error) ∧
        error.message = "Nesting is too deep." := by
  have planted : toTree id source = .ok tree := parsed
  obtain ⟨drafted, -⟩ := toTree_spec planted
  have alike : unplaced (parse tree.print) = unplaced (parse source) ∨
      ∃ error, parse tree.print = .error error ∧ error.fault = .tooDeep := parse_spaced drafted
  rcases alike with same | ⟨error, failed, deep⟩
  · left
    have alike := toTree_parsesAlike same otherId id
    rw [planted] at alike
    rcases toTree_cases otherId tree.print with ⟨error, -, failed⟩ | ⟨again, -, plantedAgain, -⟩
    · rw [failed] at alike
      cases alike
    · rw [plantedAgain] at alike
      exact ⟨again, plantedAgain, alike⟩
  · right
    rcases toTree_cases otherId tree.print with ⟨other, failedAgain, reported⟩ | ⟨again, drafted, -⟩
    · rw [failed] at failedAgain
      cases failedAgain
      refine ⟨error.toParseError, reported, ?_⟩
      rw [Error.toParseError, deep]
      rfl
    · rw [failed] at drafted
      cases drafted

theorem loop_with_arrow_is_read_back :
    ∃ tree again, (language.parse 0 "for((a in b);c++;)if(d)x=>(\x7be\x7d);else-y?.static.z").value =
        .ok tree ∧
      tree.print = "for ( ( a in b ) ; ( ++ c ) ; ) if ( d ) ( ( x ) => ( \x7b e \x7d ) ) ; " ++
        "else ( - ( ( y ?. static ) . z ) ) ;" ∧
      (language.parse 1 tree.print).value = .ok again ∧ again.content = tree.content := by
  have printed : (language.parse 0
      "for((a in b);c++;)if(d)x=>(\x7be\x7d);else-y?.static.z").value.toOption.map Tree.print =
        some ("for ( ( a in b ) ; ( ++ c ) ; ) if ( d ) ( ( x ) => ( \x7b e \x7d ) ) ; " ++
          "else ( - ( ( y ?. static ) . z ) ) ;") := by
    decide +kernel
  have accepted : (language.parse 1
      ("for ( ( a in b ) ; ( ++ c ) ; ) if ( d ) ( ( x ) => ( \x7b e \x7d ) ) ; " ++
        "else ( - ( ( y ?. static ) . z ) ) ;")).value.toOption.isSome = true := by
    decide +kernel
  obtain ⟨tree, found, print⟩ := Option.map_eq_some_iff.mp printed
  have parsed : (language.parse 0
      "for((a in b);c++;)if(d)x=>(\x7be\x7d);else-y?.static.z").value = .ok tree := by
    cases result : (language.parse 0
      "for((a in b);c++;)if(d)x=>(\x7be\x7d);else-y?.static.z").value <;> simp_all [Except.toOption]
  rcases parse_print 0 1 _ tree parsed with ⟨again, parsedAgain, same⟩ | ⟨error, failed, -⟩
  · exact ⟨tree, again, parsed, print, parsedAgain, same⟩
  · rw [print] at failed
    rw [failed] at accepted
    cases accepted

end SyntaxNav.Script
