import SyntaxNav.Proofs.FieldOrder.Entries

/-! # Fields in a circle

Behind each field of a kind but the last stands the next one, and before each stands the previous one, with
the last before the first. Going to the field before, again and again, visits all fields of the kind in turn
and comes back to where it started (`beforeTimes?_getElem`).
-/

namespace SyntaxNav.FieldOrder

/-- The field that is reached by going to the field before a number of times. -/
def beforeTimes? (order : FieldOrder) (kind field : String) : Nat → Option String
  | 0 => some field
  | times + 1 => (order.beforeTimes? kind field times).bind (order.before? kind)

/-- The index a number of places before another one in a circle of some length. -/
def indexBefore (length index times : Nat) : Nat :=
  if times ≤ index then index - times else index + length - times

section Indices

variable {length index times : Nat} (inside : index < length)

include inside

private theorem indexBefore_lt (few : times ≤ length) : indexBefore length index times < length := by
  unfold indexBefore
  split <;> omega

/-- As many places as an index is before another one, the other one is before it. -/
theorem indexBefore_indexBefore (few : times < length) :
    indexBefore length index (indexBefore length index times) = times := by
  unfold indexBefore
  split <;> split <;> omega

/-- One place further back stands the index below, and before the first index the last. -/
theorem wrapped_indexBefore (few : times < length) :
    (if indexBefore length index times = 0 then length else indexBefore length index times) - 1 =
      indexBefore length index (times + 1) := by
  unfold indexBefore
  split <;> split <;> split <;> omega

end Indices

section Unknown

variable {order : FieldOrder} {kind field : String} {fields : List String}

private theorem after?_of_unknown_kind (unknown : order.fields? kind = none) :
    order.after? kind field = none := by
  rw [after?, unknown]
  rfl

private theorem before?_of_unknown_kind (unknown : order.fields? kind = none) :
    order.before? kind field = none := by
  rw [before?, unknown]
  rfl

variable (known : order.fields? kind = some fields)

include known

private theorem after?_of_not_mem (unknown : field ∉ fields) : order.after? kind field = none := by
  rw [after?, known, Option.bind_eq_bind, Option.bind_some, List.idxOf?_eq_none_iff.mpr unknown]
  rfl

private theorem before?_of_not_mem (unknown : field ∉ fields) : order.before? kind field = none := by
  rw [before?, known, Option.bind_eq_bind, Option.bind_some, List.idxOf?_eq_none_iff.mpr unknown]
  rfl

end Unknown

section Known

variable {entries : List (String × List String)} {order : FieldOrder} {kind : String}
  {fields : List String} (made : ofEntries entries = .ok order)
  (known : order.fields? kind = some fields)

include made known

/-- A field is found where it stands, since it stands nowhere else. -/
theorem idxOf?_getElem {index : Nat} (inside : index < fields.length) :
    fields.idxOf? fields[index] = some index := by
  refine List.idxOf?_eq_some_iff.mpr ⟨inside, rfl, fun earlier before same => ?_⟩
  have := (fields_nodup made known).getElem_inj_iff.mp same
  omega

private theorem after?_getElem {index : Nat} (inside : index < fields.length) :
    order.after? kind fields[index] = fields[index + 1]? := by
  rw [after?, known, Option.bind_eq_bind, Option.bind_some, idxOf?_getElem made known inside]
  rfl

/-- The number of fields stands in for the index of the first one. -/
theorem before?_getElem {index : Nat} (inside : index < fields.length) :
    order.before? kind fields[index] = fields[(if index = 0 then fields.length else index) - 1]? := by
  rw [before?, known, Option.bind_eq_bind, Option.bind_some, idxOf?_getElem made known inside,
    Option.bind_eq_bind, Option.bind_some]
  split
  · exact List.getLast?_eq_getElem?
  · rfl

/-- Going back a number of times leads down to the first field and on from the last one. -/
theorem beforeTimes?_getElem {index times : Nat} (inside : index < fields.length)
    (few : times ≤ fields.length) :
    order.beforeTimes? kind fields[index] times = fields[indexBefore fields.length index times]? := by
  induction times with
  | zero => simp [beforeTimes?, indexBefore, inside]
  | succ times ih =>
    have reached := indexBefore_lt inside (Nat.le_of_succ_le few)
    rw [beforeTimes?, ih (Nat.le_of_succ_le few), List.getElem?_eq_getElem reached, Option.bind_some,
      before?_getElem made known reached, wrapped_indexBefore inside few]

/-- Every field is visited once on the way around. -/
theorem existsUnique_beforeTimes? {field goal : String} (member : field ∈ fields) (among : goal ∈ fields) :
    ∃! times, times < fields.length ∧ order.beforeTimes? kind field times = some goal := by
  obtain ⟨index, inside, rfl⟩ := List.getElem_of_mem member
  obtain ⟨place, ahead, rfl⟩ := List.getElem_of_mem among
  have away := indexBefore_lt inside (Nat.le_of_lt ahead)
  refine ⟨indexBefore fields.length index place, ⟨away, ?_⟩, ?_⟩
  · rw [beforeTimes?_getElem made known inside (Nat.le_of_lt away), indexBefore_indexBefore inside ahead,
      List.getElem?_eq_getElem ahead]
  · rintro times ⟨few, reaches⟩
    rw [beforeTimes?_getElem made known inside (Nat.le_of_lt few),
      ← List.getElem?_eq_getElem ahead] at reaches
    have same := (List.getElem?_inj ahead (fields_nodup made known)).mp reaches.symm
    rw [same, indexBefore_indexBefore inside few]

/-- The way around leads back to the field. -/
theorem beforeTimes?_length {field : String} (member : field ∈ fields) :
    order.beforeTimes? kind field fields.length = some field := by
  obtain ⟨index, inside, rfl⟩ := List.getElem_of_mem member
  rw [beforeTimes?_getElem made known inside (Nat.le_refl _), indexBefore, if_neg (Nat.not_le_of_lt inside),
    Nat.add_sub_cancel, List.getElem?_eq_getElem inside]

end Known

section Inverse

variable {entries : List (String × List String)} {order : FieldOrder} {kind field next : String}
  (made : ofEntries entries = .ok order)

include made

/-- Before the field behind a field stands the field. -/
theorem before?_of_after? (behind : order.after? kind field = some next) :
    order.before? kind next = some field := by
  obtain ⟨fields, known, found⟩ := Option.bind_eq_some_iff.mp behind
  obtain ⟨index, found, ahead⟩ := Option.bind_eq_some_iff.mp found
  obtain ⟨inside, rfl, -⟩ := List.idxOf?_eq_some_iff.mp found
  obtain ⟨more, rfl⟩ := List.getElem?_eq_some_iff.mp ahead
  rw [before?_getElem made known more, if_neg (Nat.succ_ne_zero index), Nat.add_sub_cancel,
    List.getElem?_eq_getElem inside]

/-- Behind the field before a field stands the field, unless it is the first one. -/
theorem after?_of_before? {fields : List String} (known : order.fields? kind = some fields)
    (before : order.before? kind next = some field) (further : fields.head? ≠ some next) :
    order.after? kind field = some next := by
  by_cases member : next ∈ fields
  · obtain ⟨index, inside, rfl⟩ := List.getElem_of_mem member
    have later : index ≠ 0 := by
      rintro rfl
      exact further (List.head?_eq_getElem?.trans (List.getElem?_eq_getElem inside))
    rw [before?_getElem made known inside, if_neg later] at before
    obtain ⟨reached, rfl⟩ := List.getElem?_eq_some_iff.mp before
    rw [after?_getElem made known reached, Nat.sub_add_cancel (Nat.pos_of_ne_zero later),
      List.getElem?_eq_getElem inside]
  · rw [before?_of_not_mem known member] at before
    cases before

end Inverse

/-- Behind each field of an entry but the last stands the next one, and going to the field before is a walk
around all of them: the place before a field is always one of the entry, as many steps as there are fields
visit each of them once, and lead back. The two are inverse to each other except at the first field. Nothing
stands behind or before any other name, or a name of a kind without an entry. -/
theorem before_is_cyclic_and_undoes_after {entries : List (String × List String)} {order : FieldOrder}
    (made : ofEntries entries = .ok order) (kind : String) :
    (∀ fields, (kind, fields) ∈ entries →
      (∀ index (inside : index < fields.length),
        0 < (if index = 0 then fields.length else index) ∧
        (if index = 0 then fields.length else index) - 1 < fields.length ∧
        order.before? kind fields[index] =
          fields[(if index = 0 then fields.length else index) - 1]?) ∧
      (∀ field ∈ fields,
        (∀ goal ∈ fields,
          ∃! times, times < fields.length ∧ order.beforeTimes? kind field times = some goal) ∧
        order.beforeTimes? kind field fields.length = some field) ∧
      (∀ field next, order.before? kind next = some field → fields.head? ≠ some next →
        order.after? kind field = some next) ∧
      (∀ field, field ∉ fields → order.after? kind field = none ∧ order.before? kind field = none)) ∧
    (∀ field next, order.after? kind field = some next → order.before? kind next = some field) ∧
    ((∀ fields, (kind, fields) ∉ entries) →
      ∀ field, order.after? kind field = none ∧ order.before? kind field = none) := by
  refine ⟨fun fields entry => ?_, fun _ _ => before?_of_after? made, fun unlisted field => ?_⟩
  · have known := (fields?_eq_some_iff made).mpr entry
    refine ⟨fun index inside => ⟨?_, ?_, before?_getElem made known inside⟩, fun field member => ⟨?_, ?_⟩,
      fun _ _ => after?_of_before? made known, fun field unknown => ⟨?_, ?_⟩⟩
    · split <;> omega
    · split <;> omega
    · exact fun goal => existsUnique_beforeTimes? made known member
    · exact beforeTimes?_length made known member
    · exact after?_of_not_mem known unknown
    · exact before?_of_not_mem known unknown
  · have unknown : order.fields? kind = none :=
      Option.eq_none_iff_forall_ne_some.mpr fun fields known =>
        unlisted fields ((fields?_eq_some_iff made).mp known)
    exact ⟨after?_of_unknown_kind unknown, before?_of_unknown_kind unknown⟩

/-- Before what a loop starts with stands its body, so the loop is walked around; behind its body stands
nothing. -/
theorem loop_fields_are_walked_around :
    ofEntries bundled.entries = .ok bundled ∧
    bundled.before? "ForStatement" "init" = some "body" ∧
    bundled.beforeTimes? "ForStatement" "init" 4 = some "init" ∧
    bundled.after? "ForStatement" "test" = some "update" ∧
    bundled.after? "ForStatement" "of" = none := by
  have entry : ("ForStatement", ["init", "test", "update", "body"]) ∈ bundled.entries := by decide
  obtain ⟨before, around, behind, unknown⟩ :=
    (before_is_cyclic_and_undoes_after ofEntries_bundled "ForStatement").1 _ entry
  refine ⟨ofEntries_bundled, (before 0 (by decide)).2.2, (around "init" (by decide)).2, ?_, ?_⟩
  · exact behind "test" "update" (before 2 (by decide)).2.2 (by decide)
  · exact (unknown "of" (by decide)).1

end SyntaxNav.FieldOrder
