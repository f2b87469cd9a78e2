import Mathlib
import Retrace.Conversion.MapCache
import Retrace.Proofs.SourceMap.Totals

/-!
# What is located is a segment of the document

Nothing keeps the columns of a written line from going back, and then the bisection may end
anywhere. It still ends behind an entry that is not above the wanted one, or in front of all of them
(`not_above_of_upperBound`), so that whatever look-up answers is a segment on the wanted line that
begins no later than the wanted column. Together with the totals of a document this says where in
its text every answer comes from.
-/

namespace Retrace.SourceMap

section Bisection

variable {entries : List Nat} {wanted : Nat}

/-- The entry in front of which the bisection ends is not above the wanted one, whatever the order
of the entries is. -/
theorem not_above_of_upperBound {low high place : Nat}
    (before : ∀ place, low = place + 1 → entries.getD place 0 ≤ wanted)
    (ends : upperBound entries wanted low high = place + 1) : entries.getD place 0 ≤ wanted := by
  induction low, high using upperBound.induct entries wanted with
  | case1 low high less middle above inductionHypothesis =>
    rw [upperBound, if_pos less] at ends
    simp only [middle] at above
    rw [if_pos above] at ends
    exact inductionHypothesis before ends
  | case2 low high less middle notAbove inductionHypothesis =>
    rw [upperBound, if_pos less] at ends
    simp only [middle] at notAbove
    rw [if_neg notAbove] at ends
    refine inductionHypothesis (fun place same => ?_) ends
    rw [← Nat.succ.inj same]
    exact Nat.le_of_not_lt notAbove
  | case3 low high notLess =>
    rw [upperBound, if_neg notLess] at ends
    exact before place ends

end Bisection

namespace Index

/-- A segment at exactly a column is one of the segments and begins there. -/
theorem mem_of_lastAt? {segments : List Segment} {column : Nat} {segment : Segment}
    (isAt : lastAt? segments column = some segment) :
    segment ∈ segments ∧ segment.column = column := by
  have isIn := List.mem_of_getLast? isAt
  simpa using List.mem_filter.1 isIn

/-- What covers a column is one of the segments and does not begin behind the column. -/
theorem mem_of_covering? {segments : List Segment} {column : Nat} {segment : Segment}
    (covers : covering? segments column = some segment) :
    segment ∈ segments ∧ segment.column ≤ column := by
  unfold covering? at covers
  split at covers
  next found isAt =>
    cases covers
    obtain ⟨isIn, same⟩ := mem_of_lastAt? isAt
    exact ⟨isIn, Nat.le_of_eq same⟩
  next =>
    dsimp only at covers
    split at covers
    next => cases covers
    next place ends =>
      obtain ⟨entry, isEntry, isAt⟩ := Option.bind_eq_some_iff.1 covers
      obtain ⟨isIn, same⟩ := mem_of_lastAt? isAt
      have notAbove := not_above_of_upperBound (by omega) ends
      rw [List.getD_eq_getElem?_getD, isEntry] at notAbove
      exact ⟨isIn, same ▸ notAbove⟩

/-- What is located is the place of a segment with a source, on the wanted line and not behind the
wanted column; lines before the first one have none. -/
theorem exists_of_locate {index : Index} {line : Int} {column : Option Int} {position : Position}
    (located : index.locate line column = some position) :
    ∃ (row : Nat) (segments : List Segment) (segment : Segment), line = row + 1 ∧
      index.lines[row]? = some segments ∧ segment ∈ segments ∧
      segment.column ≤ column.getD 0 ∧ segment.position? = some position := by
  unfold locate at located
  dsimp only at located
  split at located
  next => cases located
  next inside =>
    simp only [Bool.or_eq_true, decide_eq_true_eq, not_or] at inside
    split at located
    next => cases located
    next segments isRow =>
      obtain ⟨segment, covers, isPlace⟩ := Option.bind_eq_some_iff.1 located
      obtain ⟨isIn, notBehind⟩ := mem_of_covering? covers
      exact ⟨(line - 1).toNat, segments, segment, by omega, isRow, isIn, by omega, isPlace⟩

end Index

/-- The place of a segment is that of its source, which is not null. -/
theorem Segment.position?_eq_some_iff {segment : Segment} {position : Position} :
    segment.position? = some position ↔ segment.source ≠ .null ∧
      position = ⟨segment.source, some (segment.sourceLine + 1), some segment.sourceColumn,
        segment.name⟩ := by
  unfold position?
  split
  next isNull => simp [isNull]
  next notNull =>
    constructor
    · intro same
      exact ⟨notNull, (Option.some.inj same).symm⟩
    · rintro ⟨-, rfl⟩
      rfl

/-- What a plain document says: its sources below the root, the texts of its names, and its
mappings. -/
structure Content where
  sources : Json
  names : List String
  mappings : List Char

namespace Content

/-- The fields of a document say this. -/
structure IsIn (content : Content) (fields : List (String × Json)) : Prop where
  sources : ∃ written, Json.find? "sources" fields = some written ∧
    rootedSources ((Json.find? "sourceRoot" fields).getD .null) written = .ok content.sources
  names : ∃ written items, Json.find? "names" fields = some written ∧
    elements written = .ok items ∧ content.names = items.map Json.display
  mappings : Json.find? "mappings" fields = some (.string (String.ofList content.mappings))

/-- The text is a document that says this, perhaps behind a guard. -/
def IsOf (content : Content) (text : String) : Prop :=
  ∃ body fields, withoutGuard text.toList = .ok body ∧ Json.read body = .ok (.object fields) ∧
    content.IsIn fields

/-- The mappings have a segment on a generated line, counted from zero, and it is placed by what the
numbers of the mappings add up to through it. -/
def HasSegment (content : Content) (row : Nat) (segment : Segment) : Prop :=
  ∃ earlier here written behind later,
    writtenLines content.mappings = earlier ++ (here ++ written :: behind) :: later ∧
    earlier.length = row ∧
    Places content.sources content.names written (totals earlier (here ++ [written])) segment

end Content

/-- A value that is required is there. -/
theorem find?_of_required {key : String} {fields : List (String × Json)} {value : Json}
    (isThere : required key fields = .ok value) : Json.find? key fields = some value := by
  unfold required at isThere
  split at isThere
  next found =>
    cases isThere
    exact found
  next => cases isThere

/-- A document that is decoded says something, and its lines are those of its mappings. -/
theorem exists_content_of_decodeText {text : String} {index : Index}
    (decoded : decodeText text.toList = .ok index) :
    ∃ content : Content, content.IsOf text ∧
      decodeMappings content.sources content.names content.mappings = .ok index := by
  obtain ⟨body, isBody, decoded⟩ := exists_of_bind_eq_ok decoded
  split at decoded
  next value isRead =>
    unfold decodeValue at decoded
    split at decoded
    next fields =>
      obtain ⟨sources, hasSources, decoded⟩ := exists_of_bind_eq_ok decoded
      obtain ⟨names, hasNames, decoded⟩ := exists_of_bind_eq_ok decoded
      obtain ⟨items, areItems, decoded⟩ := exists_of_bind_eq_ok decoded
      obtain ⟨mappings, hasMappings, decoded⟩ := exists_of_bind_eq_ok decoded
      split at decoded
      next mappings =>
        obtain ⟨rooted, areRooted, decoded⟩ := exists_of_bind_eq_ok decoded
        refine ⟨⟨rooted, items.map Json.display, mappings.toList⟩,
          ⟨body, fields, isBody, isRead, ?_⟩, decoded⟩
        exact {
          sources := ⟨sources, find?_of_required hasSources, areRooted⟩
          names := ⟨names, items, find?_of_required hasNames, areItems, rfl⟩
          mappings := by rw [String.ofList_toList, find?_of_required hasMappings] }
      next => cases decoded
    next => cases decoded
  next => cases decoded

/-- The decoded segments of a line are segments that the mappings have there. -/
theorem Content.hasSegment_of_mem {content : Content} {index : Index}
    (decoded : decodeMappings content.sources content.names content.mappings = .ok index)
    {row : Nat} {segments : List Segment} (isRow : index.lines[row]? = some segments)
    {segment : Segment} (isIn : segment ∈ segments) : content.HasSegment row segment := by
  unfold decodeMappings at decoded
  obtain ⟨rows, areRows, same⟩ := exists_of_bind_eq_ok decoded
  cases same
  have start : Registers.start.newLine = totals [] [] := rfl
  obtain ⟨earlier, here, written, behind, later, cut, length, places⟩ :=
    places_of_decodeLines start areRows isRow segment isIn
  exact ⟨earlier, here, written, behind, later, cut, length, places⟩

/-- Looking up any line and column of a plain document gives an answer. A position that it gives is
that of a segment with a source which the document has on exactly this line and not behind this
column, whatever the order of the segments is; no line before the first one has any. -/
theorem locate_plain_sound {text : String} {index : Index}
    (isPlain : Resolver.ofText text = .ok (.plain index)) :
    ∃ content : Content, content.IsOf text ∧ ∀ (line : Int) (column : Option Int),
      ∃ answer, Decoder.sourceMap.locate (m := Id) (.plain index) line column = .ok answer ∧
        ∀ position ∈ answer, ∃ (row : Nat) (segment : Segment), line = row + 1 ∧
          content.HasSegment row segment ∧ segment.column ≤ column.getD 0 ∧
          segment.source ≠ .null ∧
          position = ⟨segment.source, some (segment.sourceLine + 1), some segment.sourceColumn,
            segment.name⟩ := by
  have decoded : decodeText text.toList = .ok index := by
    unfold Resolver.ofText at isPlain
    split at isPlain
    next =>
      cases decoded : decodeText text.toList with
      | error fault => rw [decoded] at isPlain; cases isPlain
      | ok other => rw [decoded] at isPlain; cases isPlain; rfl
    next =>
      obtain ⟨_, -, isPlain⟩ := exists_of_bind_eq_ok isPlain
      obtain ⟨_, -, isPlain⟩ := exists_of_bind_eq_ok isPlain
      cases isPlain
  obtain ⟨content, isContent, decoded⟩ := exists_content_of_decodeText decoded
  refine ⟨content, isContent, fun line column => ⟨index.locate line column, rfl, ?_⟩⟩
  intro position located
  obtain ⟨row, segments, segment, onLine, isRow, isIn, notBehind, isPlace⟩ :=
    Index.exists_of_locate located
  obtain ⟨hasSource, isPosition⟩ := Segment.position?_eq_some_iff.1 isPlace
  exact ⟨row, segment, onLine, Content.hasSegment_of_mem decoded isRow isIn, notBehind, hasSource,
    isPosition⟩

/-- A document whose second segment begins in front of its first one. -/
def backwardText : String :=
  "\x7b\"version\":3,\"sources\":[\"a.ts\"],\"names\":[],\"mappings\":\"IAMC,FAJI\"\x7d"

/-- The segments of that document, in its order. -/
def backwardIndex : Index :=
  ⟨[[⟨4, .string "a.ts", 6, 1, none⟩, ⟨2, .string "a.ts", 2, 5, none⟩]]⟩

/-- The bisection misses the nearest segment of a line that goes back, but what it finds is a
segment of the line in front of the wanted column. -/
theorem locate_plain_sound_of_backwardText :
    Resolver.ofText backwardText = .ok (.plain backwardIndex) ∧
    backwardIndex.locate 1 (some 5) = some ⟨.string "a.ts", some 3, some 5, none⟩ ∧
    ∃ content : Content, content.IsOf backwardText ∧ ∃ (row : Nat) (segment : Segment),
      (1 : Int) = row + 1 ∧ content.HasSegment row segment ∧ (segment.column : Int) ≤ 5 ∧
      segment.source = .string "a.ts" ∧ segment.sourceLine = 2 := by
  have isPlain : Resolver.ofText backwardText = .ok (.plain backwardIndex) := by cbv
  have located : backwardIndex.locate 1 (some 5) =
      some ⟨.string "a.ts", some 3, some 5, none⟩ := by cbv
  obtain ⟨content, isContent, answers⟩ := locate_plain_sound isPlain
  obtain ⟨answer, isAnswer, sound⟩ := answers 1 (some 5)
  obtain rfl : backwardIndex.locate 1 (some 5) = answer := Except.ok.inj isAnswer
  obtain ⟨row, segment, onLine, hasSegment, notBehind, -, isPosition⟩ := sound _ located
  injection isPosition with isSource isLine
  injection isLine with isLine
  exact ⟨isPlain, located, content, isContent, row, segment, onLine, hasSegment, notBehind,
    isSource.symm, by omega⟩

end Retrace.SourceMap
