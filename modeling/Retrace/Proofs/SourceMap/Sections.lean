import Mathlib.Data.List.Perm.Basic
import Retrace.Proofs.SourceMap.Documents

/-!
# Sections answer for the places that they cover

Sections are sorted by their offsets, and sorting keeps sections of equal offsets in the order of the
document. So the last sorted section that does not begin behind a place is the one that covers it in
the document: none of the others begins between it and the place, and of those with its own offset it
is the last one. A place that a section covers lies inside the section, so that its line and column
there are in range.
-/

namespace Retrace.SourceMap

namespace Section

theorem startsBy_iff (part : Section) (line column : Int) :
    part.startsBy line column = true ↔
      part.line < line ∨ part.line = line ∧ part.column ≤ column := by
  simp [startsBy]

theorem startsNoLater_iff (first second : Section) :
    first.startsNoLater second = true ↔
      first.line < second.line ∨ first.line = second.line ∧ first.column ≤ second.column :=
  startsBy_iff first second.line second.column

theorem startsNoLater_trans (first second third : Section)
    (lower : first.startsNoLater second = true) (upper : second.startsNoLater third = true) :
    first.startsNoLater third = true := by
  rw [startsNoLater_iff] at lower upper ⊢
  omega

theorem startsNoLater_total (first second : Section) :
    (first.startsNoLater second || second.startsNoLater first) = true := by
  rw [Bool.or_eq_true, startsNoLater_iff, startsNoLater_iff]
  omega

theorem startsNoLater_refl (part : Section) : part.startsNoLater part = true :=
  (startsNoLater_iff part part).2 (.inr ⟨rfl, Int.le_refl _⟩)

/-- What begins no later than a section begins by every place that the section begins by. -/
theorem startsBy_of_startsNoLater {first second : Section} {line column : Int}
    (order : first.startsNoLater second = true)
    (starts : second.startsBy line column = true) : first.startsBy line column = true := by
  rw [startsNoLater_iff] at order
  rw [startsBy_iff] at starts ⊢
  omega

/-- The offsets of both sections are the same. -/
def sameOffset (first second : Section) : Bool :=
  first.startsNoLater second && second.startsNoLater first

/-- The column of a place inside the section: columns count from the section's own first column on
its first line only. -/
def innerColumn (part : Section) (line column : Int) : Int :=
  if line = part.line then column - part.column else column

end Section

/-- The section covers a place: it begins by the place, none of the sections that begin by the place
begins later, and those behind it in the document begin earlier. -/
structure Covers (parts : List Section) (line column : Int) (part : Section) : Prop where
  starts : part.startsBy line column = true
  greatest : ∃ before behind, parts = before ++ part :: behind ∧
    (∀ other ∈ before, other.startsBy line column = true → other.startsNoLater part = true) ∧
    ∀ other ∈ behind, other.startsBy line column = true → part.startsNoLater other = false

/-- The value is a section of a document that embeds its map. -/
structure Embeds (value : Json) (part : Section) : Prop where
  isObject : ∃ fields, value = .object fields
  map : ∃ map, value.field? "map" = some map ∧ decodeText map.write = .ok part.index
  line : ∃ number, (value.field? "offset").bind (Json.field? "line") = some number ∧
    integerOf number = .ok part.line
  column : ∃ number, (value.field? "offset").bind (Json.field? "column") = some number ∧
    integerOf number = .ok part.column

/-- The sorted sections stand in the order of their offsets. -/
theorem sortSections_ordered (parts : List Section) :
    (sortSections parts).Pairwise fun first second => first.startsNoLater second = true :=
  List.pairwise_mergeSort Section.startsNoLater_trans Section.startsNoLater_total
    parts

/-- Sorting keeps sections of one offset in their order. -/
theorem filter_sortSections (parts : List Section) (part : Section) :
    (sortSections parts).filter part.sameOffset = parts.filter part.sameOffset := by
  have level : (parts.filter part.sameOffset).Pairwise fun first second =>
      first.startsNoLater second = true := by
    apply List.pairwise_of_forall_mem_list
    intro first isFirst second isSecond
    have left := (Bool.and_eq_true_iff.1 (List.mem_filter.1 isFirst).2).2
    have right := (Bool.and_eq_true_iff.1 (List.mem_filter.1 isSecond).2).1
    exact Section.startsNoLater_trans _ _ _ left right
  have kept : (parts.filter part.sameOffset).Sublist (sortSections parts) :=
    List.sublist_mergeSort Section.startsNoLater_trans Section.startsNoLater_total
      level List.filter_sublist
  have again : (parts.filter part.sameOffset).filter part.sameOffset =
      parts.filter part.sameOffset := by
    rw [List.filter_filter]
    congr 1
    funext other
    exact Bool.and_self _
  have inside := kept.filter part.sameOffset
  rw [again] at inside
  refine (inside.eq_of_length ?_).symm
  exact (((List.mergeSort_perm parts Section.startsNoLater).filter _).length_eq).symm

/-- The sections that begin by a place are in front of the others once they are sorted. -/
theorem takeWhile_startsBy {parts : List Section}
    (ordered : parts.Pairwise fun first second => first.startsNoLater second = true)
    (line column : Int) :
    parts.takeWhile (fun part => part.startsBy line column) =
      parts.filter fun part => part.startsBy line column := by
  induction parts with
  | nil => rfl
  | cons part parts inductionHypothesis =>
    obtain ⟨first, rest⟩ := List.pairwise_cons.1 ordered
    by_cases starts : part.startsBy line column = true
    · rw [List.takeWhile_cons_of_pos (p := fun part : Section => part.startsBy line column) starts,
        List.filter_cons_of_pos (p := fun part : Section => part.startsBy line column) starts,
        inductionHypothesis rest]
    · have none : parts.filter (fun part => part.startsBy line column) = [] := by
        apply List.filter_eq_nil_iff.2
        intro other isIn begins
        exact starts (Section.startsBy_of_startsNoLater (first other isIn) begins)
      rw [List.takeWhile_cons_of_neg (p := fun part : Section => part.startsBy line column) starts,
        List.filter_cons_of_neg (p := fun part : Section => part.startsBy line column) starts, none]

section Last

variable {parts : List Section} {line column : Int} {part : Section}
  (isLast : ((sortSections parts).filter fun part => part.startsBy line column).getLast? =
    some part)
include isLast

theorem startsBy_of_getLast? : part.startsBy line column = true := by
  have isIn := List.mem_of_getLast? isLast
  exact (List.mem_filter.1 isIn).2

/-- No section that begins by a place begins later than the last sorted one. -/
theorem startsNoLater_of_getLast? {other : Section} (isOther : other ∈ parts)
    (begins : other.startsBy line column = true) : other.startsNoLater part = true := by
  obtain ⟨front, split⟩ := List.getLast?_eq_some_iff.1 isLast
  have kept : other ∈ (sortSections parts).filter fun part => part.startsBy line column :=
    List.mem_filter.2 ⟨(List.mergeSort_perm parts _).mem_iff.2 isOther, begins⟩
  have ordered := (sortSections_ordered parts).filter fun part => part.startsBy line column
  rw [split] at kept ordered
  rcases List.mem_append.1 kept with isFront | isEnd
  · exact (List.pairwise_append.1 ordered).2.2 other isFront part List.mem_cons_self
  · rw [List.mem_singleton.1 isEnd]
    exact Section.startsNoLater_refl part

/-- In the document, the last sorted section is the last one of its offset: the others of that offset
begin by the place as well, and sorting did not change their order. -/
theorem getLast?_sameOffset : (parts.filter part.sameOffset).getLast? = some part := by
  obtain ⟨front, split⟩ := List.getLast?_eq_some_iff.1 isLast
  have within : ((sortSections parts).filter fun part => part.startsBy line column).filter
      part.sameOffset = (sortSections parts).filter part.sameOffset := by
    rw [List.filter_filter]
    apply List.filter_congr
    intro other _
    cases same : part.sameOffset other with
    | false => rfl
    | true =>
      have begins := Section.startsBy_of_startsNoLater (Bool.and_eq_true_iff.1 same).2
        (startsBy_of_getLast? isLast)
      rw [begins]
      rfl
  have self : part.sameOffset part = true :=
    Bool.and_eq_true_iff.2 ⟨Section.startsNoLater_refl part, Section.startsNoLater_refl part⟩
  rw [← filter_sortSections, ← within, split, List.filter_append, List.filter_singleton, self]
  exact List.getLast?_concat

/-- The last sorted section that begins by a place covers it. -/
theorem covers_of_getLast? : Covers parts line column part := by
  have lastOfOffset := getLast?_sameOffset isLast
  rw [List.getLast?_filter, List.find?_eq_some_iff_append] at lastOfOffset
  obtain ⟨-, behind, before, reversed, others⟩ := lastOfOffset
  have document : parts = before.reverse ++ part :: behind.reverse := by
    have twice := congrArg List.reverse reversed
    simpa using twice
  refine ⟨startsBy_of_getLast? isLast, before.reverse, behind.reverse, document, ?_, ?_⟩
  · intro other isOther begins
    have isIn : other ∈ parts := document ▸ List.mem_append_left _ isOther
    exact startsNoLater_of_getLast? isLast isIn begins
  · intro other isOther begins
    have isIn : other ∈ parts :=
      document ▸ List.mem_append_right _ (List.mem_cons_of_mem _ isOther)
    have order := startsNoLater_of_getLast? isLast isIn begins
    have apart := others other (List.mem_reverse.1 isOther)
    simpa [Section.sameOffset, order] using apart

end Last

theorem Covers.mem {parts : List Section} {line column : Int} {part : Section}
    (covers : Covers parts line column part) : part ∈ parts := by
  obtain ⟨before, behind, rfl, -, -⟩ := covers.greatest
  exact List.mem_append_right _ List.mem_cons_self

/-- No section that begins later than the covering one begins by the place. -/
theorem Covers.not_startsBy {parts : List Section} {line column : Int} {part : Section}
    (covers : Covers parts line column part) :
    ∀ next ∈ parts, next.startsNoLater part = false → next.startsBy line column = false := by
  obtain ⟨before, behind, rfl, earlier, later⟩ := covers.greatest
  intro next isNext after
  rw [Bool.eq_false_iff]
  intro begins
  rcases List.mem_append.1 isNext with isBefore | isRest
  · rw [earlier next isBefore begins] at after
    cases after
  · rcases List.mem_cons.1 isRest with rfl | isBehind
    · rw [Section.startsNoLater_refl] at after
      cases after
    · have order := Section.startsNoLater_total part next
      rw [later next isBehind begins, after] at order
      cases order

/-- A place that a section covers lies inside the section: its line counts from one, and its column is
not negative. -/
theorem Section.inside_of_startsBy {part : Section} {line column : Int}
    (starts : part.startsBy (line - 1) column = true) (nonnegative : 0 ≤ column) :
    1 ≤ line - part.line ∧ 0 ≤ part.innerColumn (line - 1) column := by
  rw [startsBy_iff] at starts
  unfold innerColumn
  constructor
  · omega
  · split <;> omega

/-- The sorted sections find nothing where no section begins by a place, and else what the covering
section finds at the place inside it. -/
theorem locateInSections_sortSections (parts : List Section) {line : Int} {column : Option Int}
    (first : 1 ≤ line) (nonnegative : 0 ≤ column.getD 0) :
    ((∀ part ∈ parts, part.startsBy (line - 1) (column.getD 0) = false) ∧
        locateInSections (sortSections parts) line column = none) ∨
      ∃ part, Covers parts (line - 1) (column.getD 0) part ∧
        locateInSections (sortSections parts) line column =
          part.index.locate (line - part.line)
            (some (part.innerColumn (line - 1) (column.getD 0))) := by
  unfold locateInSections
  dsimp only
  rw [if_neg (not_outside first nonnegative), takeWhile_startsBy (sortSections_ordered parts)]
  cases isLast : ((sortSections parts).filter fun part =>
      part.startsBy (line - 1) (column.getD 0)).getLast? with
  | none =>
    refine .inl ⟨fun part isPart => ?_, rfl⟩
    rw [Bool.eq_false_iff]
    exact List.filter_eq_nil_iff.1 (List.getLast?_eq_none_iff.1 isLast) part
      ((List.mergeSort_perm parts _).mem_iff.2 isPart)
  | some part =>
    have row : line - 1 - part.line + 1 = line - part.line := by omega
    refine .inr ⟨part, covers_of_getLast? isLast, ?_⟩
    dsimp only
    unfold Section.locate Section.innerColumn
    rw [row]

/-- Sorting brings sections of distinct offsets into one order. -/
theorem sortSections_eq_of_perm {parts permuted : List Section} (perm : permuted.Perm parts)
    (distinct : parts.Pairwise fun first second => first.sameOffset second = false) :
    sortSections permuted = sortSections parts := by
  refine List.Perm.eq_of_pairwise ?_ (sortSections_ordered permuted) (sortSections_ordered parts)
    ((List.mergeSort_perm permuted _).trans (perm.trans (List.mergeSort_perm parts _).symm))
  intro first second isFirst isSecond lower upper
  by_contra different
  have left : first ∈ parts := perm.mem_iff.1 ((List.mergeSort_perm permuted _).mem_iff.1 isFirst)
  have right : second ∈ parts := (List.mergeSort_perm parts _).mem_iff.1 isSecond
  have symmetric : Std.Symm fun first second : Section => first.sameOffset second = false :=
    ⟨fun first second apart => by rwa [Section.sameOffset, Bool.and_comm]⟩
  have apart := distinct.forall left right different
  rw [Section.sameOffset, lower, upper] at apart
  cases apart

/-- A section that embeds its map decodes. -/
theorem decodeSection_of_embeds {value : Json} {part : Section} (wellFormed : value.WellFormed)
    (embeds : Embeds value part) : decodeSection value = .ok part := by
  obtain ⟨fields, rfl⟩ := embeds.isObject
  obtain ⟨map, isMap, decoded⟩ := embeds.map
  obtain ⟨line, isLine, lineValue⟩ := embeds.line
  obtain ⟨column, isColumn, columnValue⟩ := embeds.column
  rw [decodeText_write (Json.wellFormed_of_find? wellFormed.2 isMap)] at decoded
  obtain ⟨offset, isOffset, isLine⟩ := Option.bind_eq_some_iff.1 isLine
  rw [isOffset, Option.bind_some] at isColumn
  simp only [Json.field?] at isMap isOffset
  cases offset with
  | object inner =>
    simp only [Json.field?] at isLine isColumn
    simp only [decodeSection, mentions, isMap, Option.isSome_some, bind, Except.bind, if_true,
      valueOf, required, isOffset, decoded, isLine, lineValue, isColumn, columnValue, pure,
      Except.pure]
  | _ => cases isLine

/-- Sections that embed their maps decode one by one. -/
theorem mapM_decodeSection {values : List Json} {parts : List Section}
    (wellFormed : Json.ItemsWellFormed values) (embeds : List.Forall₂ Embeds values parts) :
    values.mapM decodeSection = .ok parts := by
  induction embeds with
  | nil => rfl
  | cons first rest inductionHypothesis =>
    rw [List.mapM_cons, decodeSection_of_embeds wellFormed.1 first,
      inductionHypothesis wellFormed.2]
    rfl

/-- The text is an object with these sections. -/
def HasSections (text : String) (values : List Json) : Prop :=
  ∃ fields, Json.read text.toList = .ok (.object fields) ∧
    Json.find? "sections" fields = some (.array values)

/-- A document whose sections embed their maps is decoded to these sections. -/
theorem ofText_of_embeds {text : String} {values : List Json} {parts : List Section}
    (hasSections : HasSections text values) (embeds : List.Forall₂ Embeds values parts) :
    Resolver.ofText text = .ok (.indexed (sortSections parts)) := by
  obtain ⟨fields, isRead, isSections⟩ := hasSections
  have wellFormed : Json.ItemsWellFormed values :=
    Json.wellFormed_of_find? (Json.read_wellFormed isRead).2 isSections
  have isIndexed : sectionsOf? text.toList = some (.array values) := by
    unfold sectionsOf?
    rw [isRead]
    exact isSections
  unfold Resolver.ofText
  rw [isIndexed]
  simp only [elements, bind, Except.bind, mapM_decodeSection wellFormed embeds, pure, Except.pure]

/-- A document whose sections embed their maps resolves every place as the section does that covers
the place, at the line and the column inside the section, which are in range, and resolves a place in
front of all sections to nothing. No section begins between the covering one and the place, and the
order of sections with distinct offsets makes no difference. -/
theorem locate_eq_covering {text : String} {values : List Json} {parts : List Section}
    (hasSections : HasSections text values) (embeds : List.Forall₂ Embeds values parts) :
    ∃ resolver, Resolver.ofText text = .ok resolver ∧
      (∀ line column, 1 ≤ line → 0 ≤ column.getD 0 →
        ((∀ part ∈ parts, part.startsBy (line - 1) (column.getD 0) = false) ∧
            resolver.locate line column = none) ∨
          ∃ part, Covers parts (line - 1) (column.getD 0) part ∧
            1 ≤ line - part.line ∧ 0 ≤ part.innerColumn (line - 1) (column.getD 0) ∧
            resolver.locate line column =
              (Resolver.plain part.index).locate (line - part.line)
                (some (part.innerColumn (line - 1) (column.getD 0))) ∧
            ∀ next ∈ parts, next.startsNoLater part = false →
              next.startsBy (line - 1) (column.getD 0) = false) ∧
      ∀ permutedText permutedValues, HasSections permutedText permutedValues →
        permutedValues.Perm values →
        (parts.Pairwise fun first second => first.sameOffset second = false) →
        ∃ permuted, Resolver.ofText permutedText = .ok permuted ∧
          ∀ line column, permuted.locate line column = resolver.locate line column := by
  refine ⟨.indexed (sortSections parts), ofText_of_embeds hasSections embeds, ?_, ?_⟩
  · intro line column first nonnegative
    refine (locateInSections_sortSections parts first nonnegative).imp_right ?_
    rintro ⟨part, covers, located⟩
    obtain ⟨inner, innerColumn⟩ := Section.inside_of_startsBy covers.starts nonnegative
    exact ⟨part, covers, inner, innerColumn, located, covers.not_startsBy⟩
  · intro permutedText permutedValues permutedSections perm distinct
    obtain ⟨permutedParts, permutedEmbeds, permutedPerm⟩ := List.perm_comp_forall₂ perm embeds
    refine ⟨_, ofText_of_embeds permutedSections permutedEmbeds, ?_⟩
    intro line column
    rw [sortSections_eq_of_perm permutedPerm distinct]

/-- The text of a document with sections. -/
def writeSections (values : List Json) : String :=
  String.ofList (Json.object [("sections", .array values)]).write

theorem writeSections_hasSections {values : List Json}
    (wellFormed : Json.ItemsWellFormed values) : HasSections (writeSections values) values := by
  have object : (Json.object [("sections", .array values)]).WellFormed :=
    ⟨List.nodup_singleton _, wellFormed, trivial⟩
  refine ⟨[("sections", .array values)], ?_, rfl⟩
  unfold writeSections
  rw [String.toList_ofList]
  exact Json.read_write object

/-- A section with a source that begins at its own first place. -/
def sourceSection (line column : Int) (source : String) : Json :=
  .object
    [("offset", .object [("line", .integer line), ("column", .integer column)]),
     ("map", .object
       [("sources", .array [.string source]), ("names", .array []), ("mappings", .string "AAAA")])]

/-- Such a section, decoded. -/
def decodedSection (line column : Int) (source : String) : Section :=
  ⟨line, column, ⟨[[⟨0, .string source, 0, 0, none⟩]]⟩⟩

theorem sourceSection_wellFormed {line column : Int} (lineWritable : Number.Writable line)
    (columnWritable : Number.Writable column) (source : String) :
    (sourceSection line column source).WellFormed := by
  have outer : ["offset", "map"].Nodup := by decide
  have offset : ["line", "column"].Nodup := by decide
  have inner : ["sources", "names", "mappings"].Nodup := by decide
  exact ⟨outer, ⟨offset, lineWritable, columnWritable, trivial⟩,
    ⟨inner, ⟨trivial, trivial⟩, trivial, trivial, trivial⟩, trivial⟩

theorem sourceSection_embeds {line column : Int} (lineWritable : Number.Writable line)
    (columnWritable : Number.Writable column) (source : String) :
    Embeds (sourceSection line column source) (decodedSection line column source) := by
  have wellFormed := sourceSection_wellFormed lineWritable columnWritable source
  refine ⟨⟨_, rfl⟩, ⟨_, rfl, ?_⟩, ⟨_, rfl, rfl⟩, ⟨_, rfl, rfl⟩⟩
  rw [decodeText_write wellFormed.2.2.1]
  rfl

/-- Such a section finds its source everywhere on its first line. -/
theorem decodedSection_locate (line column : Int) (source : String) {inner : Int}
    (nonnegative : 0 ≤ inner) :
    (decodedSection line column source).index.locate 1 (some inner) =
      some ⟨.string source, some 1, some 0, none⟩ := by
  have entries : ((decodedSection line column source).index.lines.getD (1 - 1 : Int).toNat
      []).map Segment.entry = [(0, some ⟨.string source, some 1, some 0, none⟩)] := rfl
  have inside : 0 ≤ (some inner).getD 0 := nonnegative
  rw [Index.locate_eq_lastBy (Int.le_refl 1) inside entries (List.pairwise_singleton _ _)]
  simp [lastBy]

/-- A section that stands first in the document, but begins later, answers for the places behind its
offset, and does so in the other order as well. -/
theorem locate_eq_covering_of_laterFirst :
    ∃ resolver permuted,
      Resolver.ofText (writeSections [sourceSection 2 4 "b.ts", sourceSection 0 0 "a.ts"]) =
        .ok resolver ∧
      Resolver.ofText (writeSections [sourceSection 0 0 "a.ts", sourceSection 2 4 "b.ts"]) =
        .ok permuted ∧
      resolver.locate 3 (some 9) = some ⟨.string "b.ts", some 1, some 0, none⟩ ∧
      permuted.locate 3 (some 9) = some ⟨.string "b.ts", some 1, some 0, none⟩ := by
  have zero : Number.Writable 0 := Number.writable_of_lt (by decide)
  have two : Number.Writable 2 := Number.writable_of_lt (by decide)
  have four : Number.Writable 4 := Number.writable_of_lt (by decide)
  have early := sourceSection_wellFormed zero zero "a.ts"
  have late := sourceSection_wellFormed two four "b.ts"
  have laterFirst : Json.ItemsWellFormed
      [sourceSection 2 4 "b.ts", sourceSection 0 0 "a.ts"] := ⟨late, early, trivial⟩
  have earlierFirst : Json.ItemsWellFormed
      [sourceSection 0 0 "a.ts", sourceSection 2 4 "b.ts"] := ⟨early, late, trivial⟩
  have embeds : List.Forall₂ Embeds [sourceSection 2 4 "b.ts", sourceSection 0 0 "a.ts"]
      [decodedSection 2 4 "b.ts", decodedSection 0 0 "a.ts"] :=
    .cons (sourceSection_embeds two four "b.ts")
      (.cons (sourceSection_embeds zero zero "a.ts") .nil)
  obtain ⟨resolver, accepted, answers, permutes⟩ :=
    locate_eq_covering (writeSections_hasSections laterFirst) embeds
  obtain ⟨permuted, permutedAccepted, same⟩ := permutes _ _
    (writeSections_hasSections earlierFirst) (List.Perm.swap _ _ _) (by decide)
  have located : resolver.locate 3 (some 9) = some ⟨.string "b.ts", some 1, some 0, none⟩ := by
    rcases answers 3 (some 9) (by decide) (by decide) with ⟨none, -⟩ | ⟨part, covers, -, -,
      located, others⟩
    · exact absurd (none _ List.mem_cons_self) (by decide)
    · rw [located]
      rcases List.mem_cons.1 covers.mem with rfl | isEarly
      · have inner : (0 : Int) ≤ 5 := by decide
        exact decodedSection_locate 2 4 "b.ts" inner
      · rw [List.mem_singleton.1 isEarly] at others
        exact absurd (others _ List.mem_cons_self (by decide)) (by decide)
  exact ⟨resolver, permuted, accepted, permutedAccepted, located, (same _ _).trans located⟩

end Retrace.SourceMap
