import Retrace.Proofs.SourceMap.Mappings

/-!
# Look-up takes the last segment that is not behind a column

The bisection cuts ordered columns behind the last one that is not above the wanted column. Among
segments of one column the last one counts, so that what covers a column is the last segment, in the
order of the document, that does not begin behind it.
-/

namespace Retrace.SourceMap

/-- The place cuts the entries: in front of it none is above the wanted one, and behind it all
are. -/
structure Cuts (entries : List Nat) (wanted place : Nat) : Prop where
  within : place ≤ entries.length
  before : ∀ entry ∈ entries.take place, entry ≤ wanted
  behind : ∀ entry ∈ entries.drop place, wanted < entry

/-- The bisection of ordered entries ends where they are cut, if they are cut between its ends. -/
theorem upperBound_cuts {entries : List Nat} (ordered : entries.Pairwise (· ≤ ·)) (wanted : Nat)
    {low high : Nat} (order : low ≤ high) (within : high ≤ entries.length)
    (before : ∀ entry ∈ entries.take low, entry ≤ wanted)
    (behind : ∀ entry ∈ entries.drop high, wanted < entry) :
    Cuts entries wanted (upperBound entries wanted low high) := by
  induction low, high using upperBound.induct entries wanted with
  | case1 low high less middle above inductionHypothesis =>
    have place : middle < entries.length := by omega
    rw [List.getD_eq_getElem _ _ place] at above
    have later : entries.drop middle = entries[middle] :: entries.drop (middle + 1) :=
      List.drop_eq_getElem_cons place
    have laterOrdered : (entries.drop middle).Pairwise (· ≤ ·) := ordered.drop
    rw [later] at laterOrdered
    rw [upperBound, if_pos less]
    dsimp only
    rw [List.getD_eq_getElem _ _ place, if_pos above]
    refine inductionHypothesis (by omega) (by omega) before fun entry isIn => ?_
    rw [later] at isIn
    rcases List.mem_cons.1 isIn with rfl | isIn
    · exact above
    · exact Nat.lt_of_lt_of_le above ((List.pairwise_cons.1 laterOrdered).1 entry isIn)
  | case2 low high less middle notAbove inductionHypothesis =>
    have place : middle < entries.length := by omega
    rw [List.getD_eq_getElem _ _ place] at notAbove
    have earlier : entries.take (middle + 1) = entries.take middle ++ [entries[middle]] :=
      List.take_succ_eq_append_getElem place
    have earlierOrdered : (entries.take (middle + 1)).Pairwise (· ≤ ·) := ordered.take
    rw [earlier] at earlierOrdered
    rw [upperBound, if_pos less]
    dsimp only
    rw [List.getD_eq_getElem _ _ place, if_neg notAbove]
    refine inductionHypothesis (by omega) within (fun entry isIn => ?_) behind
    rw [earlier] at isIn
    rcases List.mem_append.1 isIn with isIn | isIn
    · have notLater := (List.pairwise_append.1 earlierOrdered).2.2 entry isIn entries[middle]
        List.mem_cons_self
      exact Nat.le_trans notLater (Nat.le_of_not_lt notAbove)
    · rw [List.mem_singleton.1 isIn]
      exact Nat.le_of_not_lt notAbove
  | case3 low high notLess =>
    rw [upperBound, if_neg notLess]
    have same : low = high := by omega
    exact ⟨by omega, before, by rwa [same]⟩

/-- The columns of the segments do not go back. -/
def Ordered (segments : List Segment) : Prop :=
  segments.Pairwise fun first second => first.column ≤ second.column

/-- The segments in front of the place where the columns are cut are those that do not begin behind
the wanted column. -/
theorem filter_eq_take {segments : List Segment} {column place : Nat}
    (cuts : Cuts (segments.map (·.column)) column place) :
    segments.filter (·.column ≤ column) = segments.take place := by
  have before : (segments.take place).filter (·.column ≤ column) = segments.take place := by
    apply List.filter_eq_self.2
    intro segment isIn
    apply decide_eq_true
    apply cuts.before
    rw [← List.map_take]
    exact List.mem_map_of_mem isIn
  have behind : (segments.drop place).filter (·.column ≤ column) = [] := by
    apply List.filter_eq_nil_iff.2
    intro segment isIn
    have above := cuts.behind segment.column
      (by rw [← List.map_drop]; exact List.mem_map_of_mem isIn)
    simpa using above
  rw [← List.take_append_drop place segments, List.filter_append, behind, List.append_nil, before,
    List.take_append_drop]

/-- A line from the first one on and a column that is not negative are looked up. -/
theorem not_outside {line column : Int} (first : 1 ≤ line) (nonnegative : 0 ≤ column) :
    ¬ (decide (line - 1 < 0) || decide (column < 0)) = true := by
  simp only [Bool.or_eq_true, decide_eq_true_eq]
  omega

/-- What the last entry that is not behind a column says. -/
def lastBy (entries : List Entry) (column : Nat) : Option Position :=
  (entries.filter (·.1 ≤ column)).getLast?.bind Prod.snd

namespace Index

/-- The last of ordered segments that do not begin behind a column is the last one at its own
column, and none of them begins behind it. -/
theorem lastAt?_of_getLast? {segments : List Segment} (ordered : Ordered segments) {column : Nat}
    {last : Segment} (isLast : (segments.filter (·.column ≤ column)).getLast? = some last) :
    lastAt? segments last.column = some last ∧
      ∀ segment ∈ segments, segment.column ≤ column → segment.column ≤ last.column := by
  obtain ⟨front, split⟩ := List.getLast?_eq_some_iff.1 isLast
  have bounded : last.column ≤ column := by
    have isIn : last ∈ segments.filter (·.column ≤ column) := List.mem_of_getLast? isLast
    simpa using (List.mem_filter.1 isIn).2
  have keptOrdered : Ordered (segments.filter (·.column ≤ column)) := ordered.filter _
  rw [split] at keptOrdered
  constructor
  · have kept : segments.filter (·.column = last.column) =
        (segments.filter (·.column ≤ column)).filter (·.column = last.column) := by
      rw [List.filter_filter]
      congr 1
      funext segment
      by_cases same : segment.column = last.column
      · simp [same, bounded]
      · simp [same]
    unfold lastAt?
    rw [kept, split, List.filter_append]
    simp
  · intro segment isIn within
    have kept : segment ∈ segments.filter (·.column ≤ column) :=
      List.mem_filter.2 ⟨isIn, decide_eq_true within⟩
    rw [split] at kept
    rcases List.mem_append.1 kept with isFront | isEnd
    · exact (List.pairwise_append.1 keptOrdered).2.2 segment isFront last List.mem_cons_self
    · exact Nat.le_of_eq (congrArg Segment.column (List.mem_singleton.1 isEnd))

/-- What covers a column of an ordered line is the last segment that does not begin behind it. -/
theorem covering?_of_ordered {segments : List Segment} (ordered : Ordered segments)
    (column : Nat) :
    covering? segments column = (segments.filter (·.column ≤ column)).getLast? := by
  have columns : (segments.map (·.column)).Pairwise (· ≤ ·) := List.pairwise_map.2 ordered
  have cuts := upperBound_cuts columns column (Nat.zero_le _) (Nat.le_refl _)
    (fun entry isIn => absurd isIn List.not_mem_nil)
    (fun entry isIn => absurd isIn (by rw [List.drop_length]; exact List.not_mem_nil))
  unfold covering?
  split
  next segment isAt =>
    have kept : segment ∈ segments ∧ segment.column = column := by
      have isIn := List.mem_of_getLast? isAt
      simpa using List.mem_filter.1 isIn
    cases isLast : (segments.filter (·.column ≤ column)).getLast? with
    | none =>
      have none := List.filter_eq_nil_iff.1 (List.getLast?_eq_none_iff.1 isLast) segment kept.1
      exact absurd (decide_eq_true (Nat.le_of_eq kept.2)) none
    | some last =>
      obtain ⟨lastAt, greatest⟩ := lastAt?_of_getLast? ordered isLast
      have isIn : last ∈ segments.filter (·.column ≤ column) := List.mem_of_getLast? isLast
      have bounded : last.column ≤ column := by simpa using (List.mem_filter.1 isIn).2
      have same : last.column = column :=
        Nat.le_antisymm bounded (kept.2 ▸ greatest segment kept.1 (Nat.le_of_eq kept.2))
      rw [← lastAt, same, isAt]
  next =>
    dsimp only
    generalize upperBound (segments.map (·.column)) column 0 (segments.map (·.column)).length =
      place at cuts ⊢
    have kept := filter_eq_take cuts
    cases place with
    | zero =>
      rw [kept]
      rfl
    | succ place =>
      have within : place < segments.length := by
        have bound := cuts.within
        rwa [List.length_map] at bound
      have isLast : (segments.filter (·.column ≤ column)).getLast? = some segments[place] := by
        rw [kept, List.take_succ_eq_append_getElem within, List.getLast?_concat]
      have column : (segments.map (·.column))[place]? = some segments[place].column := by
        rw [List.getElem?_map, List.getElem?_eq_getElem within]
        rfl
      rw [isLast]
      dsimp only
      rw [column]
      exact (lastAt?_of_getLast? ordered isLast).1

/-- On a line whose columns do not go back, what is located is the place of the last segment that does
not begin behind the column. -/
theorem locate_eq_getLast? {index : Index} {line : Int} {column : Option Int}
    (first : 1 ≤ line) (nonnegative : 0 ≤ column.getD 0)
    (ordered : Ordered (index.lines.getD (line - 1).toNat [])) :
    index.locate line column =
      ((index.lines.getD (line - 1).toNat []).filter
        (·.column ≤ (column.getD 0).toNat)).getLast?.bind Segment.position? := by
  rw [← covering?_of_ordered ordered]
  unfold locate
  dsimp only
  rw [if_neg (not_outside first nonnegative), List.getD_eq_getElem?_getD]
  cases index.lines[(line - 1).toNat]? with
  | none => rw [Option.getD_none, covering?_of_ordered List.Pairwise.nil]; rfl
  | some segments => rfl

/-- On a line whose columns do not go back, what is located is what the last entry that is not behind
the column says. -/
theorem locate_eq_lastBy {index : Index} {line : Int} {column : Option Int}
    {entries : List Entry} (first : 1 ≤ line) (nonnegative : 0 ≤ column.getD 0)
    (same : (index.lines.getD (line - 1).toNat []).map Segment.entry = entries)
    (ordered : entries.Pairwise fun first second => first.1 ≤ second.1) :
    index.locate line column = lastBy entries (column.getD 0).toNat := by
  subst same
  have orderedSegments : Ordered (index.lines.getD (line - 1).toNat []) := by
    have apart := List.pairwise_map.1 ordered
    exact apart
  rw [locate_eq_getLast? first nonnegative orderedSegments]
  unfold lastBy
  rw [List.filter_map, List.getLast?_map, Option.bind_map]
  rfl

end Index

end Retrace.SourceMap
