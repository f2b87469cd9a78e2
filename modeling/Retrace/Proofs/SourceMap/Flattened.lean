import Retrace.Proofs.SourceMap.Sections

/-!
# Sections as one plain map

The segments of all sections, moved by the offsets and cut off where the next section begins, make up
one plain map. On a line that several sections share, an earlier one has only segments in front of the
next section's offset, and the next section has a segment at that offset. So the last segment that does
not begin behind a place belongs to the section that covers the place, and the plain map finds what the
sections find.
-/

namespace Retrace.SourceMap

/-- A segment on a line of the generated code. Lines count from zero. -/
structure Placed where
  row : Nat
  segment : Segment

/-- The segment, a number of columns further right. -/
def Segment.shift (segment : Segment) (columns : Nat) : Segment :=
  { segment with column := segment.column + columns }

/-- Puts lines of segments below each other from a row on. Only the first of them is moved by
columns. -/
def placeLines (row columns : Nat) : List (List Segment) → List Placed
  | [] => []
  | segments :: lines =>
    segments.map (fun segment => ⟨row, segment.shift columns⟩) ++ placeLines (row + 1) 0 lines

/-- The segments of a section where they lie in the generated code. -/
def Section.placed (part : Section) : List Placed :=
  placeLines part.line.toNat part.column.toNat part.index.lines

/-- The segments of sections in the order of their offsets, each without those that lie at or behind
the offset of the next one. -/
def flatSegments : List Section → List Placed
  | [] => []
  | [part] => part.placed
  | part :: next :: parts =>
    part.placed.filter (fun placed => !next.startsBy placed.row placed.segment.column) ++
      flatSegments (next :: parts)

/-- The segments on a row. -/
def rowOf (placed : List Placed) (row : Nat) : List Segment :=
  (placed.filter (·.row = row)).map (·.segment)

/-- The number of rows that have segments, or have some below them. -/
def height (placed : List Placed) : Nat :=
  placed.foldr (fun placed rows => max (placed.row + 1) rows) 0

/-- The plain map of segments that lie on rows. -/
def Index.ofPlaced (placed : List Placed) : Index :=
  ⟨(List.range (height placed)).map (rowOf placed)⟩

/-- Sections as one plain map. -/
def flattened (parts : List Section) : Index :=
  .ofPlaced (flatSegments (sortSections parts))

/-- A section lies at a place that there is, the columns of its lines do not go back, and its map says
something from its first place on. -/
structure Section.Regular (part : Section) : Prop where
  line_nonneg : 0 ≤ part.line
  column_nonneg : 0 ≤ part.column
  ordered : ∀ segments ∈ part.index.lines, Ordered segments
  begins : ∃ segment ∈ part.index.lines.getD 0 [], segment.column = 0

section Rows

variable {placed : List Placed} {row : Nat}

@[simp]
theorem rowOf_append (first second : List Placed) (row : Nat) :
    rowOf (first ++ second) row = rowOf first row ++ rowOf second row := by
  simp [rowOf]

theorem mem_rowOf {segment : Segment} : segment ∈ rowOf placed row ↔ ⟨row, segment⟩ ∈ placed := by
  simp only [rowOf, List.mem_map, List.mem_filter, decide_eq_true_eq]
  constructor
  · rintro ⟨_, ⟨isIn, rfl⟩, rfl⟩
    exact isIn
  · intro isIn
    exact ⟨_, ⟨isIn, rfl⟩, rfl⟩

/-- What is kept of a row depends on its segments alone. -/
theorem rowOf_filter (keep : Nat → Segment → Bool) (placed : List Placed) (row : Nat) :
    rowOf (placed.filter fun placed => keep placed.row placed.segment) row =
      (rowOf placed row).filter (keep row) := by
  unfold rowOf
  rw [List.filter_map, List.filter_filter, List.filter_filter]
  congr 1
  apply List.filter_congr
  intro item _
  by_cases same : item.row = row
  · subst same
    simp
  · simp [same]

theorem row_lt_height {item : Placed} (isIn : item ∈ placed) : item.row < height placed := by
  induction placed with
  | nil => cases isIn
  | cons first placed inductionHypothesis =>
    have step : height (first :: placed) = max (first.row + 1) (height placed) := rfl
    rcases List.mem_cons.1 isIn with rfl | isIn
    · omega
    · have below := inductionHypothesis isIn
      omega

/-- The plain map has on each row the segments on that row. -/
theorem getD_lines_ofPlaced (placed : List Placed) (row : Nat) :
    (Index.ofPlaced placed).lines.getD row [] = rowOf placed row := by
  unfold Index.ofPlaced
  by_cases within : row < height placed
  · simp [within]
  · have nothing : rowOf placed row = [] := by
      rw [List.eq_nil_iff_forall_not_mem]
      intro segment isIn
      exact within (row_lt_height (mem_rowOf.1 isIn))
    simp [nothing, within]

/-- Lines that are put below each other have no segments above the first row. -/
theorem rowOf_placeLines (start columns : Nat) (lines : List (List Segment)) (row : Nat) :
    rowOf (placeLines start columns lines) row =
      if row < start then [] else
        (lines.getD (row - start) []).map (·.shift (if row = start then columns else 0)) := by
  induction lines generalizing start columns with
  | nil => simp [placeLines, rowOf]
  | cons segments lines inductionHypothesis =>
    have here : rowOf (segments.map fun segment => ⟨start, segment.shift columns⟩) row =
        if start = row then segments.map (·.shift columns) else [] := by
      by_cases same : start = row <;> simp [rowOf, List.filter_map, Function.comp_def, same]
    rw [placeLines, rowOf_append, here, inductionHypothesis]
    rcases Nat.lt_trichotomy row start with above | same | below
    · simp [above, Nat.lt_succ_of_lt above, Nat.ne_of_gt above]
    · simp [same]
    · obtain ⟨further, rfl⟩ := Nat.exists_eq_add_of_lt below
      have apart : start + further + 1 - start = further + 1 := by omega
      have notHere : start ≠ start + further + 1 := by omega
      have notAbove : ¬ start + further + 1 < start := by omega
      simp [apart, notHere, notHere.symm, notAbove]

end Rows

namespace Section

variable {part : Section} {row : Nat}

/-- The segments of a section on a row, for a section that does not begin below the row. -/
theorem rowOf_placed (regular : part.Regular) (row : Nat) :
    rowOf part.placed row = if (row : Int) < part.line then [] else
      (part.index.lines.getD (row - part.line).toNat []).map
        (·.shift (if (row : Int) = part.line then part.column.toNat else 0)) := by
  have nonnegative := regular.line_nonneg
  have above : row < part.line.toNat ↔ (row : Int) < part.line := by omega
  have same : row = part.line.toNat ↔ (row : Int) = part.line := by omega
  have inner : row - part.line.toNat = (row - part.line).toNat := by omega
  rw [placed, rowOf_placeLines, inner]
  simp only [above, same]

/-- A section has no segments in front of its offset. -/
theorem startsBy_of_mem_rowOf (regular : part.Regular) {segment : Segment}
    (isIn : segment ∈ rowOf part.placed row) : part.startsBy row segment.column = true := by
  have nonnegative := regular.column_nonneg
  rw [rowOf_placed regular] at isIn
  rw [startsBy_iff]
  split at isIn
  · cases isIn
  next notAbove =>
    obtain ⟨inner, -, rfl⟩ := List.mem_map.1 isIn
    by_cases same : (row : Int) = part.line
    · rw [if_pos same]
      simp only [Segment.shift]
      omega
    · omega

/-- A section has a segment at its offset. -/
theorem exists_mem_rowOf (regular : part.Regular) (same : (row : Int) = part.line) :
    ∃ segment ∈ rowOf part.placed row, (segment.column : Int) = part.column := by
  have nonnegative := regular.column_nonneg
  obtain ⟨first, isFirst, zero⟩ := regular.begins
  have inner : (row - part.line).toNat = 0 := by omega
  have notAbove : ¬ (row : Int) < part.line := by omega
  rw [rowOf_placed regular, if_neg notAbove, if_pos same, inner]
  refine ⟨_, List.mem_map_of_mem isFirst, ?_⟩
  simp only [Segment.shift, zero]
  omega

theorem ordered_getD_lines (regular : part.Regular) (place : Nat) :
    Ordered (part.index.lines.getD place []) := by
  rw [List.getD_eq_getElem?_getD]
  cases isLine : part.index.lines[place]? with
  | none => exact .nil
  | some segments => exact regular.ordered _ (List.mem_of_getElem? isLine)

/-- The segments of a section on a row stand in order. -/
theorem ordered_rowOf (regular : part.Regular) (row : Nat) : Ordered (rowOf part.placed row) := by
  rw [rowOf_placed regular]
  split
  · exact .nil
  · exact List.pairwise_map.2
      ((ordered_getD_lines regular _).imp fun order => Nat.add_le_add_right order _)

/-- At a place that a section begins by, the section finds its last segment on the row that does not
begin behind the column. -/
theorem locate_eq_getLast?_rowOf (regular : part.Regular) {column : Nat}
    (starts : part.startsBy row column = true) :
    part.locate row column =
      ((rowOf part.placed row).filter (·.column ≤ column)).getLast?.bind Segment.position? := by
  have lineNonneg := regular.line_nonneg
  have columnNonneg := regular.column_nonneg
  rw [startsBy_iff] at starts
  have inner : (row - part.line + 1 - 1).toNat = (row - part.line).toNat := by omega
  have first : 1 ≤ row - part.line + 1 := by omega
  have notAbove : ¬ (row : Int) < part.line := by omega
  have nonnegative :
      0 ≤ (some (if row = part.line then column - part.column else (column : Int))).getD 0 := by
    rw [Option.getD_some]
    split <;> omega
  unfold Section.locate
  rw [Index.locate_eq_getLast? first nonnegative (ordered_getD_lines regular _), inner,
    rowOf_placed regular, if_neg notAbove, List.filter_map, List.getLast?_map, Option.bind_map]
  congr 2
  apply List.filter_congr
  intro segment _
  simp only [Function.comp_apply, Segment.shift, Option.getD_some, decide_eq_decide]
  split <;> omega

end Section

/-- Sections in the order of their offsets, of which no two are the same. -/
def Apart (parts : List Section) : Prop :=
  parts.Pairwise fun first second =>
    first.startsNoLater second = true ∧ second.startsNoLater first = false

section Flat

variable {part : Section} {parts : List Section} {row : Nat}

theorem rowOf_flatSegments_cons (part next : Section) (parts : List Section) (row : Nat) :
    rowOf (flatSegments (part :: next :: parts)) row =
      (rowOf part.placed row).filter (fun segment => !next.startsBy row segment.column) ++
        rowOf (flatSegments (next :: parts)) row := by
  rw [flatSegments, rowOf_append,
    rowOf_filter (fun row segment => !next.startsBy row segment.column)]

/-- No segment lies in front of the first section. -/
theorem startsBy_of_mem_flatSegments (apart : Apart (part :: parts))
    (regular : ∀ other ∈ part :: parts, other.Regular) {segment : Segment}
    (isIn : segment ∈ rowOf (flatSegments (part :: parts)) row) :
    part.startsBy row segment.column = true := by
  induction parts generalizing part with
  | nil => exact Section.startsBy_of_mem_rowOf (regular part List.mem_cons_self) isIn
  | cons next parts inductionHypothesis =>
    obtain ⟨first, rest⟩ := List.pairwise_cons.1 apart
    obtain ⟨partRegular, restRegular⟩ := List.forall_mem_cons.1 regular
    rw [rowOf_flatSegments_cons] at isIn
    rcases List.mem_append.1 isIn with isHere | isLater
    · exact Section.startsBy_of_mem_rowOf partRegular (List.mem_filter.1 isHere).1
    · exact Section.startsBy_of_startsNoLater (first next List.mem_cons_self).1
        (inductionHypothesis rest restRegular isLater)

/-- On the first line of the first section, there is a segment at its offset. -/
theorem exists_mem_flatSegments (apart : Apart (part :: parts)) (regular : part.Regular)
    (same : (row : Int) = part.line) :
    ∃ segment ∈ rowOf (flatSegments (part :: parts)) row, (segment.column : Int) = part.column := by
  obtain ⟨segment, isIn, isFirst⟩ := Section.exists_mem_rowOf regular same
  cases parts with
  | nil => exact ⟨segment, isIn, isFirst⟩
  | cons next parts =>
    have order := ((List.pairwise_cons.1 apart).1 next List.mem_cons_self).2
    have kept : (!next.startsBy row segment.column) = true := by
      rw [same, isFirst]
      exact congrArg not order
    rw [rowOf_flatSegments_cons]
    exact ⟨segment, List.mem_append_left _ (List.mem_filter.2 ⟨isIn, kept⟩), isFirst⟩

/-- A place that is not left of another one on its row is not in front of a section that begins by the
other one. -/
theorem Section.startsBy_mono {line column further : Int} (order : column ≤ further)
    (starts : part.startsBy line column = true) : part.startsBy line further = true := by
  rw [startsBy_iff] at starts ⊢
  omega

/-- The merged rows stand in order. -/
theorem ordered_rowOf_flatSegments (apart : Apart parts)
    (regular : ∀ part ∈ parts, part.Regular) (row : Nat) :
    Ordered (rowOf (flatSegments parts) row) := by
  induction parts with
  | nil => exact .nil
  | cons part parts inductionHypothesis =>
    obtain ⟨partRegular, restRegular⟩ := List.forall_mem_cons.1 regular
    cases parts with
    | nil => exact Section.ordered_rowOf partRegular row
    | cons next parts =>
      have rest := (List.pairwise_cons.1 apart).2
      rw [rowOf_flatSegments_cons]
      refine List.pairwise_append.2 ⟨(Section.ordered_rowOf partRegular row).filter _,
        inductionHypothesis rest restRegular, ?_⟩
      intro segment isHere other isLater
      have begins := startsBy_of_mem_flatSegments rest restRegular isLater
      have cutOff := (List.mem_filter.1 isHere).2
      by_contra notOrdered
      have order : (other.column : Int) ≤ segment.column := by omega
      rw [Section.startsBy_mono order begins] at cutOff
      cases cutOff

/-- No segment begins by a place that the first section does not begin by. -/
theorem filter_flatSegments_eq_nil (apart : Apart (part :: parts))
    (regular : ∀ other ∈ part :: parts, other.Regular) {column : Nat}
    (behind : ¬ part.startsBy row column = true) :
    (rowOf (flatSegments (part :: parts)) row).filter (·.column ≤ column) = [] := by
  rw [List.filter_eq_nil_iff]
  intro segment isIn order
  have order : (segment.column : Int) ≤ column := by simpa using order
  exact behind (Section.startsBy_mono order (startsBy_of_mem_flatSegments apart regular isIn))

/-- Where a section does not begin by a place, no segment up to the place is cut off by it. -/
theorem filter_cutOff_of_not_startsBy {next : Section} {column : Nat}
    (behind : ¬ next.startsBy row column = true) (segments : List Segment) :
    (segments.filter fun segment => !next.startsBy row segment.column).filter (·.column ≤ column) =
      segments.filter (·.column ≤ column) := by
  rw [List.filter_filter]
  apply List.filter_congr
  intro segment _
  by_cases order : segment.column ≤ column
  · have before : next.startsBy row segment.column = false := by
      rw [Bool.eq_false_iff]
      exact fun begins => behind (Section.startsBy_mono (by omega) begins)
    simp [order, before]
  · simp [order]

/-- Below the line where a section begins, every segment is cut off by it. -/
theorem filter_cutOff_eq_nil {next : Section} (above : next.line < row) (segments : List Segment) :
    (segments.filter fun segment => !next.startsBy row segment.column) = [] := by
  rw [List.filter_eq_nil_iff]
  intro segment _ cutOff
  rw [(Section.startsBy_iff next row segment.column).2 (.inl above)] at cutOff
  cases cutOff

/-- The first section has a segment at every place of its first line that is not in front of it. -/
theorem filter_flatSegments_ne_nil (apart : Apart (part :: parts)) (regular : part.Regular)
    {column : Nat} (same : (row : Int) = part.line) (order : part.column ≤ column) :
    (rowOf (flatSegments (part :: parts)) row).filter (·.column ≤ column) ≠ [] := by
  obtain ⟨segment, isIn, isFirst⟩ := exists_mem_flatSegments apart regular same
  exact List.ne_nil_of_mem (List.mem_filter.2 ⟨isIn, decide_eq_true (by omega)⟩)

/-- The last merged segment that does not begin behind a place is the last one of the section that
covers the place. -/
theorem getLast?_rowOf_flatSegments (apart : Apart parts) (regular : ∀ part ∈ parts, part.Regular)
    (row column : Nat) :
    ((rowOf (flatSegments parts) row).filter (·.column ≤ column)).getLast? =
      (parts.takeWhile fun part => part.startsBy row column).getLast?.bind fun part =>
        ((rowOf part.placed row).filter (·.column ≤ column)).getLast? := by
  induction parts with
  | nil => rfl
  | cons part parts inductionHypothesis =>
    obtain ⟨partRegular, restRegular⟩ := List.forall_mem_cons.1 regular
    by_cases starts : part.startsBy row column = true
    case neg =>
      rw [filter_flatSegments_eq_nil apart regular starts,
        List.takeWhile_cons_of_neg (p := fun part : Section => part.startsBy row column) starts]
      rfl
    rw [List.takeWhile_cons_of_pos (p := fun part : Section => part.startsBy row column) starts]
    cases parts with
    | nil => rfl
    | cons next parts =>
      have rest := (List.pairwise_cons.1 apart).2
      rw [rowOf_flatSegments_cons, List.filter_append]
      by_cases nextStarts : next.startsBy row column = true
      case neg =>
        rw [filter_flatSegments_eq_nil rest restRegular nextStarts,
          filter_cutOff_of_not_startsBy nextStarts, List.append_nil,
          List.takeWhile_cons_of_neg (p := fun part : Section => part.startsBy row column) nextStarts]
        rfl
      have others := inductionHypothesis rest restRegular
      rw [List.takeWhile_cons_of_pos (p := fun part : Section => part.startsBy row column)
        nextStarts] at others ⊢
      rw [List.getLast?_cons_cons, ← others]
      rcases (Section.startsBy_iff next row column).1 nextStarts with above | ⟨same, order⟩
      · rw [filter_cutOff_eq_nil above]
        rfl
      · exact List.getLast?_append_of_ne_nil _ (filter_flatSegments_ne_nil rest
          (restRegular next List.mem_cons_self) same.symm order)

end Flat

/-- Sections of distinct offsets lie apart once they are sorted. -/
theorem apart_sortSections {parts : List Section}
    (distinct : parts.Pairwise fun first second => first.sameOffset second = false) :
    Apart (sortSections parts) := by
  have symmetric {first second : Section} (apart : first.sameOffset second = false) :
      second.sameOffset first = false := by
    rwa [Section.sameOffset, Bool.and_comm]
  have sortedDistinct : (sortSections parts).Pairwise fun first second =>
      first.sameOffset second = false :=
    (List.mergeSort_perm parts _).symm.pairwise distinct symmetric
  refine ((sortSections_ordered parts).and sortedDistinct).imp ?_
  rintro first second ⟨order, apart⟩
  rw [Section.sameOffset, order, Bool.true_and] at apart
  exact ⟨order, apart⟩

/-- Regular sections of distinct offsets, in any order, find at every place what the plain map finds
that they make up together. -/
theorem locate_indexed_eq_flattened {parts : List Section}
    (distinct : parts.Pairwise fun first second => first.sameOffset second = false)
    (regular : ∀ part ∈ parts, part.Regular) {line : Int} {column : Option Int} (first : 1 ≤ line)
    (nonnegative : 0 ≤ column.getD 0) :
    (Resolver.indexed (sortSections parts)).locate line column =
      (Resolver.plain (flattened parts)).locate line column := by
  have apart := apart_sortSections distinct
  have sortedRegular : ∀ part ∈ sortSections parts, part.Regular := fun part isPart =>
    regular part ((List.mergeSort_perm parts _).mem_iff.1 isPart)
  obtain ⟨row, isRow⟩ := Int.eq_ofNat_of_zero_le (show 0 ≤ line - 1 by omega)
  obtain ⟨place, isPlace⟩ := Int.eq_ofNat_of_zero_le nonnegative
  have plain : (flattened parts).locate line column =
      ((rowOf (flatSegments (sortSections parts)) row).filter
        (·.column ≤ place)).getLast?.bind Segment.position? := by
    have lines : (flattened parts).lines.getD (line - 1).toNat [] =
        rowOf (flatSegments (sortSections parts)) row := by
      rw [isRow, Int.toNat_natCast]
      exact getD_lines_ofPlaced _ row
    rw [Index.locate_eq_getLast? first nonnegative
      (lines ▸ ordered_rowOf_flatSegments apart sortedRegular row), lines, isPlace,
      Int.toNat_natCast]
  have indexed : locateInSections (sortSections parts) line column =
      ((sortSections parts).takeWhile fun part => part.startsBy row place).getLast?.bind fun part =>
        part.locate row place := by
    unfold locateInSections
    dsimp only
    rw [if_neg (not_outside first nonnegative), isRow, isPlace]
    cases ((sortSections parts).takeWhile fun part => part.startsBy row place).getLast? <;> rfl
  refine indexed.trans (Eq.trans ?_ plain.symm)
  rw [getLast?_rowOf_flatSegments apart sortedRegular, Option.bind_assoc]
  cases isLast : ((sortSections parts).takeWhile fun part =>
      part.startsBy row place).getLast? with
  | none => rfl
  | some part =>
    have isIn := List.mem_of_getLast? isLast
    rw [takeWhile_startsBy (sortSections_ordered parts)] at isIn
    obtain ⟨isPart, starts⟩ := List.mem_filter.1 isIn
    exact Section.locate_eq_getLast?_rowOf (sortedRegular part isPart) starts

/-- Two sections that share a line, the later one first. The earlier one has segments behind the later
one's offset, on that line and on the next one. -/
def sharedLine : List Section :=
  [⟨0, 6, ⟨[[⟨0, .string "b.ts", 0, 0, none⟩]]⟩⟩,
   ⟨0, 0, ⟨[[⟨0, .string "a.ts", 0, 0, none⟩, ⟨8, .string "a.ts", 3, 0, none⟩],
     [⟨2, .string "a.ts", 4, 0, none⟩]]⟩⟩]

theorem sharedLine_regular : ∀ part ∈ sharedLine, part.Regular := by
  simp only [sharedLine, List.forall_mem_cons, List.not_mem_nil, false_implies, implies_true,
    and_true]
  exact ⟨⟨by decide, by decide, by simp [Ordered], _, List.mem_cons_self, rfl⟩,
    ⟨by decide, by decide, by simp [Ordered], _, List.mem_cons_self, rfl⟩⟩

/-- On a shared line, behind the offset of the later section, both find the same. -/
theorem locate_indexed_eq_flattened_of_sharedLine :
    (Resolver.indexed (sortSections sharedLine)).locate 1 (some 9) =
      (Resolver.plain (flattened sharedLine)).locate 1 (some 9) :=
  locate_indexed_eq_flattened (by decide) sharedLine_regular (by decide) (by decide)

end Retrace.SourceMap
