import SyntaxNav.Proofs.Editor.SessionRuns

/-! # Cuts in scripts

A session for scripts keeps the tree of exactly the text that it cuts from. The spans of that tree are
places of parts of the text, so a planned removal can always be carried out. It takes one part out of
the text. The cursor goes to a position before that part, which the removal does not move.
-/

namespace SyntaxNav

namespace Script

variable {source : String} {draft inner : Draft} {span : Span}

/-- The spans of a parsed source are in order. -/
theorem parse_span_ordered (parsed : parse source = .ok draft) (occurs : draft.Occurs inner)
    (spanned : inner.label.span = some span) : span.start ≤ span.stop := by
  cases occurs with
  | root =>
    obtain ⟨tokens, body, -, -, rfl⟩ := parse_covers parsed
    cases spanned
    exact Pos.le_after _ _
  | child above member =>
    have nest := parse_laidOut parsed _ above
    obtain ⟨whole, part, -, same, -, nonempty, -⟩ := nest.encloses _ (List.mem_map_of_mem member)
    rw [spanned, Option.some.injEq] at same
    exact same ▸ le_of_lt nonempty

/-- The spans of a parsed source are the places of its parts. -/
theorem parse_span_parts (parsed : parse source = .ok draft) (occurs : draft.Occurs inner)
    (spanned : inner.label.span = some span) :
    ∃ kept inside rest, source.toList = kept ++ inside ++ rest ∧
      span = ⟨Pos.origin.after kept, Pos.origin.after (kept ++ inside)⟩ := by
  obtain ⟨start, stop⟩ := parse_endsWhere parsed inner occurs span spanned
  exact Span.parts_of_reached start stop (parse_span_ordered parsed occurs spanned)

end Script

/-- A removal takes a part out of a text, and puts the cursor somewhere before that part. -/
def Removal.TakesOut (removal : Removal) (text front kept removed rest : List Char) : Prop :=
  text = kept ++ removed ++ rest ∧
    removal.deleted = ⟨Pos.origin.after kept, Pos.origin.after (kept ++ removed)⟩ ∧
    front <+: kept ∧ removal.cursor = Pos.origin.after front

namespace Navigator.Removes

variable {tree : Tree} {removal : Removal} {node outer : Node}

private theorem occurs_node (removes : Removes tree removal node outer) : tree.root.Occurs node := by
  rcases removes.around with rfl | ⟨slot, member⟩
  · exact removes.occurs
  · exact removes.occurs.child member

/-- The node whose start the cursor goes to starts no later than the removed node. -/
theorem cursor_le {id : TreeId} {source : String} (removes : Removes tree removal node outer)
    (parsed : Script.toTree id source = .ok tree) : removal.cursor ≤ removal.deleted.start := by
  obtain ⟨whole, outerSpan, cursor⟩ := Option.map_eq_some_iff.mp removes.cursor
  rcases removes.around with rfl | ⟨slot, member⟩
  · rw [removes.deleted, Option.some.injEq] at outerSpan
    rw [← cursor, outerSpan]
  · have nest := Script.toTree_spansNest parsed removes.occurs
    obtain ⟨whole', part, sameWhole, samePart, starts, -, -⟩ :=
      nest.encloses _ (List.mem_map_of_mem member)
    rw [outerSpan, Option.some.injEq] at sameWhole
    rw [removes.deleted, Option.some.injEq] at samePart
    rw [← cursor, sameWhole, samePart]
    exact starts

private theorem takesOut {id : TreeId} {source : String} (removes : Removes tree removal node outer)
    (parsed : Script.toTree id source = .ok tree) :
    ∃ front kept removed rest, removal.TakesOut source.toList front kept removed rest := by
  have drafted := (Script.toTree_spec parsed).1
  have nodeSpan : (node.relabel Numbered.toLabel).label.span = some removal.deleted := by
    rw [SlotTree.label_relabel]
    exact removes.deleted
  obtain ⟨kept, removed, rest, text, deleted⟩ :=
    Script.parse_span_parts drafted (removes.occurs_node.relabel _) nodeSpan
  obtain ⟨whole, outerSpan, cursor⟩ := Option.map_eq_some_iff.mp removes.cursor
  have outerSpan' : (outer.relabel Numbered.toLabel).label.span = some whole := by
    rw [SlotTree.label_relabel]
    exact outerSpan
  obtain ⟨⟨front, isFront, reached⟩, -⟩ :=
    Script.parse_endsWhere drafted _ (removes.occurs.relabel _) whole outerSpan'
  have keptFront : kept <+: source.toList := ⟨removed ++ rest, by rw [text, List.append_assoc]⟩
  have order := removes.cursor_le parsed
  rw [← cursor, reached, deleted] at order
  refine ⟨front, kept, removed, rest, text, deleted, ?_, cursor.symm.trans reached⟩
  exact Pos.prefix_of_after_le .origin isFront keptFront order

end Navigator.Removes

namespace Removal.TakesOut

variable {removal : Removal} {text : String} {front kept removed rest : List Char}

private theorem apply (takesOut : removal.TakesOut text.toList front kept removed rest) :
    removal.apply text = some (String.ofList (kept ++ rest)) := by
  obtain ⟨whole, deleted, -, -⟩ := takesOut
  rw [Removal.apply, whole, deleted, Span.deleteFrom?_of_prefix, Option.map_some]

end Removal.TakesOut

namespace Session

variable {session : Session}

/-- A cut in a session for scripts takes a part out of the text, unless there is nothing to cut or the
text cannot be parsed. -/
theorem Reachable.cut_cases (reachable : session.Reachable (· = Script.language)) (view : View) :
    (∃ failure, (session.execute .cut view).value.result = .error (.ofParseFailure failure)) ∨
    (session.execute .cut view).value.result = .ok .noTarget ∨
    ∃ (removal : Removal) (front kept removed rest : List Char),
      removal.TakesOut view.text.toList front kept removed rest ∧
      (session.execute .cut view).value.result = .ok (.cut removal.deleted removal.cursor) ∧
      (session.execute .cut view).value.view.text.toList = kept ++ rest := by
  have builds : ∀ language, language = Script.language → language.Builds := by
    rintro _ rfl id source tree parsed
    exact (Script.toTree_spec parsed).2
  have sound := reachable.sound builds
  rcases session.execute_cases .cut view with
    ⟨failure, -, result⟩ | ⟨after, tree, refreshed, known, result⟩
  · exact .inl ⟨failure, by rw [result]⟩
  right
  rw [result]
  have soundAfter := sound.refresh refreshed
  have coherent := soundAfter.tree_coherent known builds
  have isCut : (after.perform tree .cut view).value = (after.cut tree view).value := rfl
  rw [isCut]
  rcases soundAfter.cut_cases known coherent view with result | ⟨removal, node, outer, removes, result⟩
  · exact .inl (by rw [result])
  right
  rw [result]
  -- The tree is that of the very text that is cut, so its spans are places in it.
  obtain ⟨_, id, rfl, parsed⟩ := soundAfter.parsed _ known
  obtain ⟨front, kept, removed, rest, takesOut⟩ := removes.takesOut parsed
  rcases after.remove_cases view removal with ⟨failed, -⟩ | ⟨text, applied, result⟩
  · rw [takesOut.apply] at failed
    cases failed
  · rw [takesOut.apply] at applied
    cases applied
    refine ⟨removal, front, kept, removed, rest, takesOut, by rw [result], ?_⟩
    rw [result]
    exact String.toList_ofList

/-- In every run of a session for scripts, the span that a cut deletes lies in the text. A cut takes
exactly that span out of the text, and leaves the cursor at or before its start, at the byte offset
where it was in the old text. -/
theorem cut_takes_out_the_span (reachable : session.Reachable (· = Script.language)) (view : View) :
    (∀ span, (session.execute .cut view).value.result ≠ .error (.outOfRange span)) ∧
    ∀ deleted cursor, (session.execute .cut view).value.result = .ok (.cut deleted cursor) →
      ∃ kept removed rest offset, view.text.toList = kept ++ removed ++ rest ∧
        (session.execute .cut view).value.view.text.toList = kept ++ rest ∧
        deleted.start.offset? view.text.toList = some (Text.byteLength kept) ∧
        deleted.stop.offset? view.text.toList = some (Text.byteLength (kept ++ removed)) ∧
        cursor ≤ deleted.start ∧ cursor.offset? view.text.toList = some offset ∧
        cursor.offset? (session.execute .cut view).value.view.text.toList = some offset := by
  rcases reachable.cut_cases view with
    ⟨failure, result⟩ | result | ⟨removal, front, kept, removed, rest, takesOut, result, text⟩
  · rw [result]
    cases failure <;> exact ⟨nofun, nofun⟩
  · rw [result]
    exact ⟨nofun, nofun⟩
  · rw [result, text]
    refine ⟨nofun, ?_⟩
    rintro _ _ ⟨⟩
    obtain ⟨whole, deleted, isFront, cursor⟩ := takesOut
    have keptFront : kept <+: view.text.toList := ⟨removed ++ rest, by rw [whole, List.append_assoc]⟩
    have passedFront : kept ++ removed <+: view.text.toList := ⟨rest, whole.symm⟩
    refine ⟨kept, removed, rest, Text.byteLength front, whole, rfl, ?_, ?_, ?_, ?_, ?_⟩
    · rw [deleted]
      exact Pos.offset?_of_prefix keptFront
    · rw [deleted]
      exact Pos.offset?_of_prefix passedFront
    · rw [deleted, cursor]
      obtain ⟨between, rfl⟩ := isFront
      rw [Pos.after_append]
      exact Pos.le_after _ _
    · rw [cursor]
      exact Pos.offset?_of_prefix (isFront.trans keptFront)
    · rw [cursor]
      exact Pos.offset?_of_prefix (isFront.trans (List.prefix_append kept rest))

theorem cut_behind_continued_string :
    ((start Script.language .bundled).execute .cut
        ⟨"f('é\\\n', g(a, b))", ⟨2, 5⟩, ⟨2, 5⟩⟩).value.result =
      .ok (.cut ⟨⟨2, 5⟩, ⟨2, 6⟩⟩ ⟨2, 3⟩) ∧
    ∃ kept removed rest : List Char, "f('é\\\n', g(a, b))".toList = kept ++ removed ++ rest ∧
      ((start Script.language .bundled).execute .cut
        ⟨"f('é\\\n', g(a, b))", ⟨2, 5⟩, ⟨2, 5⟩⟩).value.view.text.toList = kept ++ rest := by
  have result : ((start Script.language .bundled).execute .cut
      ⟨"f('é\\\n', g(a, b))", ⟨2, 5⟩, ⟨2, 5⟩⟩).value.result =
        .ok (.cut ⟨⟨2, 5⟩, ⟨2, 6⟩⟩ ⟨2, 3⟩) := by
    decide +kernel
  obtain ⟨kept, removed, rest, -, whole, left, -⟩ :=
    (cut_takes_out_the_span (.start .bundled rfl) _).2 _ _ result
  exact ⟨result, kept, removed, rest, whole, left⟩

end Session

end SyntaxNav
