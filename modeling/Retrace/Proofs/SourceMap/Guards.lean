import Retrace.Proofs.SourceMap.Sections

/-!
# Documents behind a guard

A guard keeps a document from being run as a script. What decodes a plain document drops the guard;
what looks for sections does not, and finds no value in a guarded text. So a guard changes nothing in
front of a plain document, and an indexed one is decoded behind it as if it were plain.
-/

namespace Retrace.SourceMap

/-- A line that guards the text behind it. -/
structure IsGuard (guard : List Char) : Prop where
  marked : guardMark <+: guard
  inLine : '\n' ∉ guard

instance (guard : List Char) : Decidable (IsGuard guard) :=
  decidable_of_iff (guardMark <+: guard ∧ '\n' ∉ guard)
    ⟨fun ⟨marked, inLine⟩ => ⟨marked, inLine⟩, fun isGuard => ⟨isGuard.marked, isGuard.inLine⟩⟩

/-- A document behind a guard, which has a line of its own. -/
def behindGuard (guard text : String) : String :=
  guard ++ "\n" ++ text

theorem toList_behindGuard (guard text : String) :
    (behindGuard guard text).toList = guard.toList ++ '\n' :: text.toList := by
  simp [behindGuard]

section Guard

variable {guard text : List Char}

/-- A guard is dropped with the end of its line. -/
theorem withoutGuard_append (isGuard : IsGuard guard) (text : List Char) :
    withoutGuard (guard ++ '\n' :: text) = .ok text := by
  have guarded : guardMark.isPrefixOf (guard ++ '\n' :: text) = true :=
    List.isPrefixOf_iff_prefix.2 (isGuard.marked.trans (List.prefix_append _ _))
  have passed : ∀ char ∈ guard, (char ≠ '\n' : Bool) = true := by
    intro char isIn
    exact decide_eq_true fun feed => isGuard.inLine (feed ▸ isIn)
  have behind : (guard ++ '\n' :: text).dropWhile (· ≠ '\n') = '\n' :: text := by
    rw [List.dropWhile_append_of_pos passed]
    rfl
  rw [withoutGuard, if_pos guarded, behind]

/-- A text that begins with a brace has no guard. -/
theorem withoutGuard_of_brace (begins : text.head? = some '\x7b') : withoutGuard text = .ok text := by
  obtain ⟨rest, rfl⟩ := List.head?_eq_some_iff.1 begins
  exact if_neg (by simp [guardMark])

/-- Decoding drops the guard in front of a text that has none itself. -/
theorem decodeText_append (isGuard : IsGuard guard) (begins : text.head? = some '\x7b') :
    decodeText (guard ++ '\n' :: text) = decodeText text := by
  rw [decodeText, decodeText, withoutGuard_append isGuard, withoutGuard_of_brace begins]

/-- No sections are found in a text that begins with a guard. -/
theorem sectionsOf?_append (isGuard : IsGuard guard) (text : List Char) :
    sectionsOf? (guard ++ '\n' :: text) = none := by
  have guarded : guardMark.isPrefixOf (guard ++ '\n' :: text) = true :=
    List.isPrefixOf_iff_prefix.2 (isGuard.marked.trans (List.prefix_append _ _))
  unfold sectionsOf?
  split
  next value isRead => exact absurd isRead (read_ne_ok_of_guard guarded)
  next => rfl

end Guard

/-- Every document is decoded behind a guard as a plain one. -/
theorem ofText_guarded {guard text : String} (isGuard : IsGuard guard.toList)
    (begins : text.toList.head? = some '\x7b') :
    Resolver.ofText (behindGuard guard text) = (decodeText text.toList).map .plain := by
  rw [Resolver.ofText, toList_behindGuard, sectionsOf?_append isGuard,
    decodeText_append isGuard begins]

/-- An object without sources is no plain document. -/
theorem decodeText_of_noSources {text : List Char} {fields : List (String × Json)}
    (isRead : Json.read text = .ok (.object fields)) (noSources : Json.find? "sources" fields = none) :
    decodeText text = .error (.missingKey "'sources'") := by
  have quoted : String.ofList (Text.quoted "sources".toList) = "'sources'" := by decide +kernel
  rw [decodeText_of_read isRead, decodeValue, decodeFields, required, noSources, ← quoted]
  rfl

/-- Behind a guard, a plain document that is accepted without it is accepted with the same answers. An
indexed one is decoded there as if it were plain: its sections do not count, and without sources of
its own it is refused. -/
theorem ofText_behindGuard {guard text : String} {resolver : Resolver}
    (isGuard : IsGuard guard.toList) (begins : text.toList.head? = some '\x7b')
    (accepted : Resolver.ofText text = .ok resolver) :
    (sectionsOf? text.toList = none → Resolver.ofText (behindGuard guard text) = .ok resolver) ∧
    ∀ sections, sectionsOf? text.toList = some sections →
      Resolver.ofText (behindGuard guard text) = (decodeText text.toList).map .plain ∧
      ∀ fields, Json.read text.toList = .ok (.object fields) →
        Json.find? "sources" fields = none →
        Resolver.ofText (behindGuard guard text) = .error (.missingKey "'sources'") := by
  have asPlain := ofText_guarded isGuard begins
  constructor
  · intro plain
    rw [Resolver.ofText, plain] at accepted
    rw [asPlain]
    exact accepted
  · intro sections _
    refine ⟨asPlain, fun fields isRead noSources => ?_⟩
    rw [asPlain, decodeText_of_noSources isRead noSources]
    rfl

/-- A guard with the quote that many servers write behind its mark. -/
def quotedGuard : String := ")]\x7d'"

/-- A plain document whose only source begins at its first place. -/
def plainSource : String :=
  writeDocument ["a.ts"] [] [[⟨0, some ⟨0, 0, 0, none⟩⟩]]

/-- A plain document is accepted behind a guard with the same answers. -/
theorem ofText_behindGuard_of_plainSource :
    ∃ resolver, Resolver.ofText plainSource = .ok resolver ∧
      Resolver.ofText (behindGuard quotedGuard plainSource) = .ok resolver := by
  obtain ⟨fields, isRead, describes⟩ :=
    writeDocument_encodes ["a.ts"] [] [[⟨0, some ⟨0, 0, 0, none⟩⟩]]
  have inRange : ∀ drafts ∈ [[(⟨0, some ⟨0, 0, 0, none⟩⟩ : Draft)]], ∀ draft ∈ drafts,
      draft.InRange ["a.ts"] [] := by decide
  obtain ⟨index, decoded, -⟩ := decodeFields_of_describes inRange describes
  have plain : sectionsOf? plainSource.toList = none := by
    unfold sectionsOf? plainSource
    rw [isRead]
    exact describes.noSections
  have accepted : Resolver.ofText plainSource = .ok (.plain index) := by
    unfold Resolver.ofText
    rw [plain]
    unfold plainSource
    rw [decodeText_of_read isRead, decodeValue, decoded]
    rfl
  have begins : plainSource.toList.head? = some '\x7b' := by
    unfold plainSource writeDocument
    rw [String.toList_ofList]
    rfl
  exact ⟨_, accepted, (ofText_behindGuard (by decide) begins accepted).1 plain⟩

/-- An indexed document resolves its places, but is refused behind a guard for want of sources. -/
theorem ofText_behindGuard_of_sourceSection :
    IsGuard quotedGuard.toList ∧
    (writeSections [sourceSection 0 0 "a.ts"]).toList.head? = some '\x7b' ∧
    (∃ resolver, Resolver.ofText (writeSections [sourceSection 0 0 "a.ts"]) = .ok resolver ∧
      resolver.locate 1 (some 0) = some ⟨.string "a.ts", some 1, some 0, none⟩) ∧
    Resolver.ofText (behindGuard quotedGuard (writeSections [sourceSection 0 0 "a.ts"])) =
      .error (.missingKey "'sources'") := by
  have zero : Number.Writable 0 := Number.writable_of_lt (by decide)
  have wellFormed : Json.ItemsWellFormed [sourceSection 0 0 "a.ts"] :=
    ⟨sourceSection_wellFormed zero zero "a.ts", trivial⟩
  have embeds : List.Forall₂ Embeds [sourceSection 0 0 "a.ts"] [decodedSection 0 0 "a.ts"] :=
    .cons (sourceSection_embeds zero zero "a.ts") .nil
  have isGuard : IsGuard quotedGuard.toList := by decide
  have begins : (writeSections [sourceSection 0 0 "a.ts"]).toList.head? = some '\x7b' := by
    unfold writeSections
    rw [String.toList_ofList]
    rfl
  have sorted : sortSections [decodedSection 0 0 "a.ts"] = [decodedSection 0 0 "a.ts"] :=
    List.mergeSort_singleton _
  refine ⟨isGuard, begins, ⟨_, ofText_of_embeds (writeSections_hasSections wellFormed) embeds, ?_⟩,
    ?_⟩
  · rw [sorted]
    exact decodedSection_locate 0 0 "a.ts" (Int.le_refl 0)
  · have object : (Json.object [("sections", .array [sourceSection 0 0 "a.ts"])]).WellFormed :=
      ⟨List.nodup_singleton _, wellFormed, trivial⟩
    have isRead : Json.read (writeSections [sourceSection 0 0 "a.ts"]).toList =
        .ok (.object [("sections", .array [sourceSection 0 0 "a.ts"])]) := by
      unfold writeSections
      rw [String.toList_ofList]
      exact Json.read_write object
    rw [ofText_guarded isGuard begins, decodeText_of_noSources isRead rfl]
    rfl

end Retrace.SourceMap
