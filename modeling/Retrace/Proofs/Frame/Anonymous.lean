import Retrace.Proofs.Frame.Anonymous.Schemes
import Retrace.Proofs.Frame.Anonymous.Signs

/-!
# Call sites without a method read back

Two forms are asked before the fourth one, which reads every call site without a method as it is
meant. What the second one takes are the files that begin with one of its schemes, and what the third
one takes are those with a file that it knows behind an at sign, and the bundles.
-/

namespace Retrace

namespace Grammar

open Pattern

variable {file line column : List Char}

/-- The parts that are read of a call site without a method. -/
def anonymousParts (file line column : List Char) : WrittenFrame :=
  if IsScheme file then ⟨[], file ++ ':' :: line, some column, none⟩
  else if BeginsScheme file then ⟨[], file, some line, some column⟩
  else
    match splitAtKnown? file with
    | some (front, behind) => ⟨"at ".toList ++ front, behind, some line, some column⟩
    | none =>
      if IsBundle file then ⟨[], Frame.opening.toList ++ file, some line, some column⟩
      else ⟨[], file, some line, some column⟩

/-- The second form reads a call site without a method if the file begins with one of its schemes, the
third one if it knows the file behind an at sign or the line as a bundle, and the fourth one reads the
others. -/
theorem written_anonymousText (isAnonymous : IsAnonymous file line column) :
    all.findSome? (·.written? (anonymousText file line column)) =
      some (anonymousParts file line column) := by
  have noSpace : ' ' ∉ file := Text.not_mem_of_unspaced isAnonymous.file.unspaced (by decide)
  have noChrome := written?_eq_none .chrome (matchFront?_chrome_of_anonymous isAnonymous)
  have inNode := written?_eq_some .node (matchFront?_node_of_anonymous isAnonymous)
    (ofCaptures_anonymousText file line column)
  have inWinjs := matchFront?_winjs_of_anonymous isAnonymous
  rw [all, List.findSome?_cons, noChrome, List.findSome?_cons, anonymousParts]
  by_cases isScheme : IsScheme file
  · rw [run_winjsEnd_of_isScheme isAnonymous isScheme] at inWinjs
    rw [written?_eq_some .winjs inWinjs (ofCaptures_captureScheme file line column),
      if_pos isScheme]
    rfl
  · rw [if_neg isScheme]
    by_cases begins : BeginsScheme file
    · rw [run_winjsEnd_of_beginsScheme isAnonymous begins] at inWinjs
      rw [written?_eq_some .winjs inWinjs (ofCaptures_anonymousText file line column),
        if_pos begins]
      rfl
    · rw [run_winjsEnd_eq_none isScheme begins] at inWinjs
      rw [written?_eq_none .winjs inWinjs, List.findSome?_cons, if_neg begins]
      cases split : splitAtKnown? file with
      | some parts =>
        obtain ⟨front, behind⟩ := parts
        have inGecko := matchFront?_gecko_of_split isAnonymous split
        obtain ⟨rfl, -⟩ := of_splitAtKnown?_eq_some split
        have evalless : WrittenFrame.outOfNestedEval
            ⟨"at ".toList ++ front, behind, some line, some column⟩ =
            ⟨"at ".toList ++ front, behind, some line, some column⟩ :=
          outOfNestedEval_of_not_mem fun isIn =>
            noSpace (List.mem_append_right front (List.mem_cons_of_mem '@' isIn))
        rw [written?_eq_some .gecko inGecko (ofCaptures_captureSplit front behind line column),
          resolveEval, evalless]
      | none =>
        have inGecko := matchFront?_gecko_of_no_split isAnonymous split
        by_cases isBundle : IsBundle file
        · rw [if_pos isBundle] at inGecko ⊢
          rw [written?_eq_some .gecko inGecko (ofCaptures_captureLine file line column), resolveEval,
            outOfNestedEval_of_opening noSpace rfl]
        · rw [if_neg isBundle] at inGecko ⊢
          rw [written?_eq_none .gecko inGecko, List.findSome?_cons, inNode]
          rfl

end Grammar

namespace Frame

open Grammar

variable {file : String} {line column : Nat}

/-- The frame of a call site without a method. -/
def anonymousFrame (file : String) (line column : Nat) : Frame :=
  if IsScheme file.toList then
    ⟨none, String.ofList (file.toList ++ ':' :: Number.digits line), some column, none⟩
  else if BeginsScheme file.toList then ⟨none, file, some line, some column⟩
  else
    match splitAtKnown? file.toList with
    | some (front, behind) =>
      ⟨some (String.ofList ("at ".toList ++ front)), String.ofList behind, some line, some column⟩
    | none =>
      if IsBundle file.toList then ⟨none, opening ++ file, some line, some column⟩
      else ⟨none, file, some line, some column⟩

/-- Nothing is made of a file but itself: it is no scheme, and either a scheme begins it or the third
form knows neither a file behind an at sign nor the line as a bundle. -/
structure IsKept (file : List Char) : Prop where
  noScheme : ¬ IsScheme file
  plain : BeginsScheme file ∨ splitAtKnown? file = none ∧ ¬ IsBundle file

/-- The frame of a call site without a method has the file and the place as they are written exactly
if nothing else is made of the file. -/
theorem anonymousFrame_eq_iff :
    anonymousFrame file line column = ⟨none, file, some line, some column⟩ ↔ IsKept file.toList := by
  constructor
  · intro same
    unfold anonymousFrame at same
    split at same
    next => exact absurd (congrArg Frame.column same) (by simp)
    next noScheme =>
      refine ⟨noScheme, ?_⟩
      split at same
      next begins => exact .inl begins
      next =>
        split at same
        next => exact absurd (congrArg Frame.method same) (by simp)
        next noSplit =>
          split at same
          next =>
            have length := congrArg (fun frame => frame.file.length) same
            have longer : opening.length = 7 := by decide
            simp [longer] at length
          next noBundle => exact .inr ⟨noSplit, noBundle⟩
  · rintro ⟨noScheme, plain⟩
    unfold anonymousFrame
    rw [if_neg noScheme]
    by_cases begins : BeginsScheme file.toList
    · rw [if_pos begins]
    · obtain ⟨noSplit, noBundle⟩ := plain.resolve_left begins
      rw [if_neg begins, noSplit]
      exact if_neg noBundle

/-- Every call site without a method is read: as its file and place, unless the second form takes the
line for a path or the third one takes the keyword for a part of the method or the file. -/
theorem ofLine_anonymousText (isBare : IsBare file.toList)
    (fewLine : (Number.digits line).length ≤ Number.digitLimit)
    (fewColumn : (Number.digits column).length ≤ Number.digitLimit) :
    ofLine (anonymousText file.toList (Number.digits line) (Number.digits column)) =
      .ok (some (anonymousFrame file line column)) ∧
    (anonymousFrame file line column = ⟨none, file, some line, some column⟩ ↔
      IsKept file.toList) := by
  refine ⟨?_, anonymousFrame_eq_iff⟩
  have parts := written_anonymousText ⟨isBare, isNumber_digits line, isNumber_digits column⟩
  rw [ofLine, readBy, parts, anonymousParts, anonymousFrame]
  by_cases isScheme : IsScheme file.toList
  · simp only [if_pos isScheme, WrittenFrame.frame, number?_digits fewColumn]
    rfl
  · by_cases begins : BeginsScheme file.toList
    · simp only [if_neg isScheme, if_pos begins, frame_digits _ _ fewLine fewColumn,
        String.ofList_toList]
      rfl
    · simp only [if_neg isScheme, if_neg begins]
      cases splitAtKnown? file.toList with
      | some parts =>
        simp only [frame_digits _ _ fewLine fewColumn]
        rfl
      | none =>
        have joined : String.ofList (opening.toList ++ file.toList) = opening ++ file := by
          rw [← String.toList_append, String.ofList_toList]
        by_cases isBundle : IsBundle file.toList
        · simp only [if_pos isBundle, frame_digits _ _ fewLine fewColumn, joined]
          rfl
        · simp only [if_neg isBundle, frame_digits _ _ fewLine fewColumn, String.ofList_toList]
          rfl

/-- A file in a scoped package is kept, though it has an at sign. -/
theorem ofLine_anonymousText_of_scopedPackage :
    ofLine (anonymousText "/app/@scope/main.js".toList (Number.digits 12) (Number.digits 345)) =
      .ok (some ⟨none, "/app/@scope/main.js", some 12, some 345⟩) := by
  have kept : IsKept "/app/@scope/main.js".toList := ⟨by decide, .inr (by decide)⟩
  have isBare : IsBare "/app/@scope/main.js".toList := by decide
  have fewLine : (Number.digits 12).length ≤ Number.digitLimit := by decide
  have fewColumn : (Number.digits 345).length ≤ Number.digitLimit := by decide
  obtain ⟨isRead, keeps⟩ := ofLine_anonymousText isBare fewLine fewColumn
  rw [keeps.2 kept] at isRead
  exact isRead

/-- A file in a package whose name begins like a page is split at the at sign, although the fourth form
would read it as it is written. -/
theorem ofLine_webpackPackage :
    ofLine "    at /app/node_modules/@webpack-cli/serve/lib/index.js:1:2".toList =
      .ok (some ⟨some "at /app/node_modules/", "webpack-cli/serve/lib/index.js", some 1, some 2⟩) ∧
    Grammar.node.readFrame "    at /app/node_modules/@webpack-cli/serve/lib/index.js:1:2".toList =
      .ok (some ⟨none, "/app/node_modules/@webpack-cli/serve/lib/index.js", some 1, some 2⟩) := by
  decide +kernel

end Frame

end Retrace
