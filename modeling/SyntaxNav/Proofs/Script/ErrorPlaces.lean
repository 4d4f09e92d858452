import SyntaxNav.Proofs.Script.Assembly
import SyntaxNav.Proofs.Script.NoOrphans
import SyntaxNav.Proofs.Script.Tiling

/-! # Errors point into the source

A reader that fails does so at the next token, behind those that it took. So the error of a source whose
tokens can all be read is at the start of the token in front of which the parser stopped, or at the end of the
source. A token or comment that cannot be read comes before all other errors, and the error is where it
starts.
-/

namespace SyntaxNav.Script

/-- The tokens of a source are all read, and the making of its tree stopped with an error behind some of
them, in front of those that are left. -/
def StopsBehind (source : String) (consumed left : List Token) (error : Error) : Prop :=
  Tokenizer.tokens.of source.toList = .ok (consumed ++ left) ∧
    ∃ bench : Workbench, bench.cursor.rest = left ∧
      (Cursor.first (consumed ++ left) (Pos.origin.after source.toList)).Passes consumed bench.cursor ∧
      program (m := Maker) (Phrase.readWithin (unrollings (consumed ++ left).length))
        ⟨.first (consumed ++ left) (Pos.origin.after source.toList), .empty⟩ =
          .error (.error error) bench

/-- A maker fails with the error of a reader, at the cursor where the reader fails. -/
private theorem maker_stops {tokens : List Token} {sourceEnd : Pos} {error : Error} {after : Cursor}
    (stopped : program (m := Reader) (Phrase.readWithin (unrollings tokens.length))
      (.first tokens sourceEnd) = .error error after) :
    ∃ builder, program (m := Maker) (Phrase.readWithin (unrollings tokens.length))
      ⟨.first tokens sourceEnd, .empty⟩ = .error (.error error) ⟨after, builder⟩ := by
  have mirrors := program_mirrors (readWithin_mirrors (unrollings tokens.length)) .empty
    (.first tokens sourceEnd)
  rw [stopped] at mirrors
  exact mirrors

/-- An error in the tokens of a source is where the first token starts that the parser has not consumed, or at
the end of the source. -/
theorem parseTokens_stops {source : String} {tokens : List Token} {error : Error}
    (scanned : scan source.toList = ⟨tokens, none⟩)
    (failed : parseTokens tokens (Pos.origin.after source.toList) = .error error) :
    ∃ consumed left, tokens = consumed ++ left ∧ StopsBehind source consumed left error ∧
      error.pos = (left.head?.map (·.span.start)).getD (Pos.origin.after source.toList) := by
  unfold parseTokens at failed
  split at failed
  · cases failed
  · rename_i other after stopped
    cases failed
    have ends := (Assembled.program (Assembled.readWithin (unrollings tokens.length))).endsInPlace
    obtain ⟨⟨consumed, passes⟩, place⟩ := ends.error _ _ _ stopped
    obtain ⟨builder, made⟩ := maker_stops stopped
    obtain rfl : tokens = consumed ++ after.rest := passes.rest
    have tokenized : Tokenizer.tokens.of source.toList = .ok (consumed ++ after.rest) := by
      rw [Tokenizer.tokens_of, scanned]
    refine ⟨consumed, after.rest, rfl, ⟨tokenized, ⟨after, builder⟩, rfl, passes, made⟩, ?_⟩
    rw [place, Cursor.start]
    split <;> simp_all [passes.sourceEnd, Cursor.first]

/-- What cannot be read starts at a position of the source. -/
theorem scan_stops {source : String} {error : Error} (found : (scan source.toList).error = some error) :
    ∃ tiles gap bad, source.toList = laid tiles ++ (gap ++ bad) ∧ Tiled [] tiles (gap ++ bad) ∧
      Gap bad gap ∧ Offends bad error.fault ∧
      scan source.toList = ⟨tiles.map Tile.token, some error⟩ ∧
      error.pos.offset? source.toList = some (Text.byteLength (laid tiles ++ gap)) := by
  obtain ⟨tiles, behind, parts, tiled, tokens, remainder⟩ :=
    scanFrom_tiles .origin source.toList [] rfl
  have sameError : (scanFrom .origin source.toList).error = some error := found
  have scanned : scan source.toList = ⟨tiles.map Tile.token, some error⟩ := by
    rw [← tokens, ← sameError]
    rfl
  rw [sameError, List.nil_append] at remainder
  cases remainder with
  | @faulty gap bad fault isGap offends =>
    have isPrefix : laid tiles ++ gap <+: source.toList := by
      rw [parts, ← List.append_assoc]
      exact List.prefix_append _ bad
    refine ⟨tiles, gap, bad, parts, tiled, isGap, offends, scanned, ?_⟩
    rw [← Pos.origin_after]
    exact Pos.offset?_of_prefix isPrefix

/-- A token starts at a position of the source. -/
theorem offset?_start_of_scanned {source : String} {token : Token}
    (member : token ∈ (scan source.toList).tokens) :
    ∃ before behind, source.toList = before ++ token.kind.text.toList ++ behind ∧
      token.span.start.offset? source.toList = some (Text.byteLength before) := by
  obtain ⟨before, behind, whole, span⟩ := (scanFrom_parts .origin source.toList).1 token member
  have isPrefix : before <+: source.toList := by
    rw [whole, List.append_assoc]
    exact List.prefix_append _ _
  refine ⟨before, behind, whole, ?_⟩
  rw [span]
  exact Pos.offset?_of_prefix isPrefix

/-- A source is rejected with an error at a position of the source. If the tokens of the source cannot all be
read, the error is the one that the first token or comment that cannot be read gives, and it is where that
starts. Otherwise it is where the first token starts that the parser has not consumed, or at the end of the
source if all are consumed. -/
theorem parse_errors_point_into_source (id : TreeId) (source : String) (failure : ParseFailure)
    (failed : (language.parse id source).value = .error failure) :
    ∃ (error : Error) (offset : Nat), failure = .malformed ⟨some error.pos, error.fault.message⟩ ∧
      error.pos.offset? source.toList = some offset ∧
      ((∃ tiles gap bad, source.toList = laid tiles ++ (gap ++ bad) ∧ Tiled [] tiles (gap ++ bad) ∧
          Gap bad gap ∧ Offends bad error.fault ∧
          scan source.toList = ⟨tiles.map Tile.token, some error⟩ ∧
          Tokenizer.tokens.of source.toList = .error (.error error) ∧
          offset = Text.byteLength (laid tiles ++ gap)) ∨
        ∃ consumed left, scan source.toList = ⟨consumed ++ left, none⟩ ∧
          StopsBehind source consumed left error ∧
          (left = [] ∧ offset = Text.byteLength source.toList ∨
            ∃ token later before behind, left = token :: later ∧ token.span.start = error.pos ∧
              source.toList = before ++ token.kind.text.toList ++ behind ∧
              offset = Text.byteLength before)) := by
  have failed : toTree id source = .error failure := failed
  rcases toTree_ends id source with ⟨tree, made, -⟩ | ⟨error, parsed, reported, -⟩
  · cases made.symm.trans failed
  cases reported.symm.trans failed
  unfold parse at parsed
  simp only at parsed
  split at parsed
  · rename_i found
    cases parsed
    obtain ⟨tiles, gap, bad, parts, tiled, isGap, offends, scanned, place⟩ := scan_stops found
    have stopped : Tokenizer.tokens.of source.toList = .error (.error error) := by
      rw [Tokenizer.tokens_of, scanned]
    exact ⟨error, _, rfl, place,
      .inl ⟨tiles, gap, bad, parts, tiled, isGap, offends, scanned, stopped, rfl⟩⟩
  · rename_i found
    have whole : scan source.toList = ⟨(scan source.toList).tokens, none⟩ := by
      rw [← found]
    obtain ⟨consumed, left, tokens, stops, place⟩ := parseTokens_stops whole parsed
    have scanned : scan source.toList = ⟨consumed ++ left, none⟩ := by
      rw [← tokens, ← found]
    cases left with
    | nil =>
      have atEnd : error.pos.offset? source.toList = some (Text.byteLength source.toList) := by
        rw [place]
        exact Pos.offset?_of_prefix List.prefix_rfl
      exact ⟨error, _, rfl, atEnd, .inr ⟨consumed, [], scanned, stops, .inl ⟨rfl, rfl⟩⟩⟩
    | cons token later =>
      have start : token.span.start = error.pos := place.symm
      have member : token ∈ (scan source.toList).tokens := by
        rw [scanned]
        exact List.mem_append_right consumed List.mem_cons_self
      obtain ⟨before, behind, whole, atToken⟩ := offset?_start_of_scanned member
      rw [start] at atToken
      refine ⟨error, _, rfl, atToken, .inr ⟨consumed, _, scanned, stops, .inr ?_⟩⟩
      exact ⟨token, later, before, behind, rfl, start, whole, rfl⟩

/-- The closing parenthesis is missed at the name on the second line, in front of which everything is
consumed. -/
theorem unclosed_arguments_point_at_name :
    (language.parse 0 "f(a\n/*ü*/ b)").value =
        .error (.malformed ⟨some ⟨2, 6⟩, "Expected ')', found identifier 'b'."⟩) ∧
      Pos.offset? ⟨2, 6⟩ "f(a\n/*ü*/ b)".toList = some 11 ∧
      ∃ error consumed token later, error.pos = ⟨2, 6⟩ ∧ token.span.start = ⟨2, 6⟩ ∧
        scan "f(a\n/*ü*/ b)".toList = ⟨consumed ++ token :: later, none⟩ ∧
        StopsBehind "f(a\n/*ü*/ b)" consumed (token :: later) error := by
  have reported : (language.parse 0 "f(a\n/*ü*/ b)").value.map (fun _ => ()) =
      .error (.malformed ⟨some ⟨2, 6⟩, "Expected ')', found identifier 'b'."⟩) := by
    decide +kernel
  have rejected : (language.parse 0 "f(a\n/*ü*/ b)").value =
      .error (.malformed ⟨some ⟨2, 6⟩, "Expected ')', found identifier 'b'."⟩) := by
    cases result : (language.parse 0 "f(a\n/*ü*/ b)").value with
    | ok tree => rw [result] at reported; cases reported
    | error failure => rw [result] at reported; cases reported; rfl
  have scans : (scan "f(a\n/*ü*/ b)".toList).error = none := by
    decide +kernel
  have place : Pos.offset? ⟨2, 6⟩ "f(a\n/*ü*/ b)".toList = some 11 := by
    decide +kernel
  refine ⟨rejected, place, ?_⟩
  obtain ⟨error, offset, same, found, unread | stopped⟩ :=
    parse_errors_point_into_source 0 _ _ rejected
  · obtain ⟨_, _, _, -, -, -, -, scanned, -, -⟩ := unread
    rw [scanned] at scans
    cases scans
  · have pos : error.pos = ⟨2, 6⟩ := by
      injection same with same
      injection same with same
      exact (Option.some.inj same).symm
    obtain ⟨consumed, left, scanned, stops, ⟨-, whole⟩ | ⟨token, later, -, -, rfl, start, -⟩⟩ := stopped
    · rw [pos, place, whole] at found
      exact absurd found (by decide +kernel)
    · exact ⟨error, consumed, token, later, pos, start.trans pos, scanned, stops⟩

end SyntaxNav.Script
