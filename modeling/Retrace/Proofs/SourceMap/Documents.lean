import Retrace.Proofs.Json.RoundTrip
import Retrace.Proofs.SourceMap.Lookup
import Retrace.SourceMap.Resolver

/-!
# Documents give back what was drafted

A text that is read as a JSON value has no guard, so a document is decoded from the value alone; how
its text is laid out and in which order its fields stand makes no difference. Look-up in a plain
document gives the place of the last drafted segment that does not begin behind the wanted column.
-/

namespace Retrace.SourceMap

/-- A text that begins with a guard is no JSON value. -/
theorem read_ne_ok_of_guard {text : List Char} {value : Json}
    (guarded : guardMark.isPrefixOf text = true) : Json.read text ≠ .ok value := by
  intro isRead
  obtain ⟨rest, rfl⟩ := List.isPrefixOf_iff_prefix.1 guarded
  have first : guardMark ++ rest = ')' :: (']' :: '\x7d' :: rest) := rfl
  rw [first] at isRead
  unfold Json.read at isRead
  rw [if_neg (by rw [List.head?_cons]; decide)] at isRead
  have space : Json.Reader.skipSpace (')' :: (']' :: '\x7d' :: rest)) =
      ')' :: (']' :: '\x7d' :: rest) := rfl
  rw [space, Json.Reader.readValue_scalar _ _ (by decide) (by decide) (by decide)] at isRead
  cases isRead

/-- A text that is read as a value decodes as that value does. -/
theorem decodeText_of_read {text : List Char} {value : Json} (isRead : Json.read text = .ok value) :
    decodeText text = decodeValue value := by
  have noGuard : ¬ guardMark.isPrefixOf text = true := fun guarded =>
    read_ne_ok_of_guard guarded isRead
  unfold decodeText withoutGuard
  rw [if_neg noGuard]
  simp only [bind, Except.bind, isRead]

/-- Writing a well-formed value and decoding the text decodes the value. -/
theorem decodeText_write {value : Json} (wellFormed : value.WellFormed) :
    decodeText value.write = decodeValue value :=
  decodeText_of_read (Json.read_write wellFormed)

/-- The fields are those of a map with these sources, names and segments, without a root and without
sections. -/
structure Describes (fields : List (String × Json)) (sources names : List String)
    (lines : List (List Draft)) : Prop where
  sources : Json.find? "sources" fields = some (.array (sources.map .string))
  names : Json.find? "names" fields = some (.array (names.map .string))
  mappings : Json.find? "mappings" fields = some (.string (String.ofList (writeMappings lines)))
  noRoot : Json.find? "sourceRoot" fields = none
  noSections : Json.find? "sections" fields = none

/-- The text is an object that describes a map. -/
def Encodes (text : String) (sources names : List String) (lines : List (List Draft)) : Prop :=
  ∃ fields, Json.read text.toList = .ok (.object fields) ∧ Describes fields sources names lines

/-- The place that drafted lines give to a generated line, counted from one, and column, counted from
zero: that of the last segment of the line that does not begin behind the column. -/
def drafted (sources names : List String) (lines : List (List Draft)) (line : Int)
    (column : Option Int) : Option Position := do
  let drafts ← lines[(line - 1).toNat]?
  let draft ← (drafts.filter (·.column ≤ (column.getD 0).toNat)).getLast?
  draft.position? sources names

section Drafts

variable {sources names : List String} {lines : List (List Draft)}

/-- Strings are well-formed items. -/
theorem strings_wellFormed (texts : List String) :
    Json.ItemsWellFormed (texts.map .string) := by
  induction texts with
  | nil => trivial
  | cons text texts inductionHypothesis => exact ⟨trivial, inductionHypothesis⟩

/-- A written document describes what it was written from. -/
theorem writeDocument_encodes (sources names : List String) (lines : List (List Draft)) :
    Encodes (writeDocument sources names lines) sources names lines := by
  have wellFormed : (document sources names lines).WellFormed := by
    have three : Number.Writable 3 := Number.writable_of_lt (by decide)
    have keys : ["version", "sources", "names", "mappings"].Nodup := by decide
    exact ⟨keys, three, strings_wellFormed sources, strings_wellFormed names, trivial, trivial⟩
  have isRead : Json.read (writeDocument sources names lines).toList =
      .ok (document sources names lines) := by
    unfold writeDocument
    rw [String.toList_ofList]
    exact Json.read_write wellFormed
  exact ⟨_, isRead, ⟨rfl, rfl, rfl, rfl, rfl⟩⟩

/-- The fields of a map decode to lines that have the entries of the drafts. -/
theorem decodeFields_of_describes {fields : List (String × Json)}
    (inRange : ∀ drafts ∈ lines, ∀ draft ∈ drafts, draft.InRange sources names)
    (describes : Describes fields sources names lines) :
    ∃ index : Index, decodeFields fields = .ok index ∧
      ∀ row, (index.lines.getD row []).map Segment.entry =
        (lines.getD row []).map (Draft.entry sources names) := by
  obtain ⟨index, decoded, entries⟩ := decodeMappings_writeMappings inRange
  have shown : (names.map Json.string).map Json.display = names := by
    rw [List.map_map]
    exact List.map_id _
  refine ⟨index, ?_, entries⟩
  simp only [decodeFields, required, describes.sources, describes.names, describes.mappings,
    describes.noRoot, Option.getD_none, bind, Except.bind, elements, rootedSources, shown,
    String.toList_ofList, decoded]

/-- What the entries of drafted lines say is what was drafted. -/
theorem lastBy_entries (line : Int) (column : Option Int) :
    lastBy ((lines.getD (line - 1).toNat []).map (Draft.entry sources names))
      (column.getD 0).toNat = drafted sources names lines line column := by
  unfold lastBy drafted
  rw [List.filter_map, List.getLast?_map, Option.bind_map, List.getD_eq_getElem?_getD]
  cases lines[(line - 1).toNat]? with
  | none => rfl
  | some drafts => rfl

/-- The text of a map resolves every place to what was drafted for it: to nothing on a line that does
not exist, in front of the first segment of a line, and at a segment without an origin, and else to
the origin of the last segment that does not begin behind the place. -/
theorem locate_eq_drafted
    (inRange : ∀ drafts ∈ lines, ∀ draft ∈ drafts, draft.InRange sources names)
    (ordered : ∀ drafts ∈ lines, drafts.Pairwise fun first second =>
      first.column ≤ second.column) :
    Encodes (writeDocument sources names lines) sources names lines ∧
      ∀ text, Encodes text sources names lines →
        ∃ resolver, Resolver.ofText text = .ok resolver ∧
          ∀ line column, 1 ≤ line → 0 ≤ column.getD 0 →
            resolver.locate line column = drafted sources names lines line column := by
  refine ⟨writeDocument_encodes sources names lines, ?_⟩
  rintro text ⟨fields, isRead, describes⟩
  obtain ⟨index, decoded, entries⟩ := decodeFields_of_describes inRange describes
  refine ⟨.plain index, ?_, ?_⟩
  · have noSections : sectionsOf? text.toList = none := by
      unfold sectionsOf?
      rw [isRead]
      exact describes.noSections
    unfold Resolver.ofText
    rw [noSections, decodeText_of_read isRead]
    simp only [decodeValue, decoded, Except.map]
  · intro line column first nonnegative
    have orderedEntries : ((lines.getD (line - 1).toNat []).map
        (Draft.entry sources names)).Pairwise fun first second => first.1 ≤ second.1 := by
      refine List.pairwise_map.2 ?_
      rw [List.getD_eq_getElem?_getD]
      cases found : lines[(line - 1).toNat]? with
      | none => exact List.Pairwise.nil
      | some drafts => exact ordered drafts (List.mem_of_getElem? found)
    have located := Index.locate_eq_lastBy first nonnegative (entries (line - 1).toNat)
      orderedEntries
    rw [lastBy_entries] at located
    exact located

end Drafts

/-- A line with two segments of one column, a line without segments, and one more line. -/
def mixedLines : List (List Draft) :=
  [[⟨2, none⟩, ⟨4, some ⟨1, 6, 3, some 0⟩⟩, ⟨4, some ⟨0, 2, 5, none⟩⟩], [],
   [⟨0, some ⟨1, 0, 0, some 0⟩⟩]]

/-- Of two segments of one column the last one counts, and nothing is found at a segment without an
origin, in front of the first segment and on a line without segments. -/
theorem locate_eq_drafted_of_mixedLines :
    ∃ resolver, Resolver.ofText (writeDocument ["a.ts", "b.ts"] ["run"] mixedLines) =
        .ok resolver ∧
      resolver.locate 1 (some 9) = some ⟨.string "a.ts", some 3, some 5, none⟩ ∧
      resolver.locate 1 (some 3) = none ∧ resolver.locate 1 none = none ∧
      resolver.locate 2 (some 0) = none ∧
      resolver.locate 3 none = some ⟨.string "b.ts", some 1, some 0, some "run"⟩ := by
  have inRange : ∀ drafts ∈ mixedLines, ∀ draft ∈ drafts,
      draft.InRange ["a.ts", "b.ts"] ["run"] := by decide
  have ordered : ∀ drafts ∈ mixedLines, drafts.Pairwise fun first second =>
      first.column ≤ second.column := by decide
  obtain ⟨encodes, resolves⟩ := locate_eq_drafted inRange ordered
  obtain ⟨resolver, accepted, located⟩ := resolves _ encodes
  refine ⟨resolver, accepted, ?_, ?_, ?_, ?_, ?_⟩
  · exact located 1 (some 9) (by decide) (by decide)
  · exact located 1 (some 3) (by decide) (by decide)
  · exact located 1 none (by decide) (by decide)
  · exact located 2 (some 0) (by decide) (by decide)
  · exact located 3 none (by decide) (by decide)

end Retrace.SourceMap
