import Mathlib.Data.Finset.Card
import Retrace.Proofs.Conversion.Questions

/-!
# How little a conversion asks

A conversion asks nothing without a reason, and nothing too often. What it asks is what the loads for
its frames ask, so the bounds are facts about the list of these loads: a path that can be loaded is in
it once, and one that fails is in it once for a file, since a failed file is not tried again.
-/

namespace Retrace

/-- What is asked has a reason: only the map paths are asked for, a text is read only directly behind
the answer that it is there, and only a text that was just read is decoded. -/
def Exchange.Justified (mapPaths : List String) (before : List Exchange) : Exchange → Prop
  | .holds path _ => path ∈ mapPaths
  | .readText path _ => path ∈ mapPaths ∧ before.getLast? = some (.holds path (.ok true))
  | .decode text => ∃ path ∈ mapPaths, before.getLast? = some (.readText path (.ok text))
  | .isDirectory _ _ => False
  | .listDirectory _ _ => False

section Justification

variable {mapPaths : List String} {exchange : Exchange} {front : List Exchange}

/-- Exchanges further in front make no difference. -/
theorem Exchange.Justified.further (justified : exchange.Justified mapPaths front)
    (before : List Exchange) : exchange.Justified mapPaths (before ++ front) := by
  cases exchange with
  | holds path answer => exact justified
  | readText path answer =>
    exact ⟨justified.1, by rw [List.getLast?_append, justified.2, Option.some_or]⟩
  | decode text =>
    obtain ⟨path, isPath, last⟩ := justified
    exact ⟨path, isPath, by rw [List.getLast?_append, last, Option.some_or]⟩
  | isDirectory path answer => exact justified
  | listDirectory path answer => exact justified

end Justification

namespace MapCache

variable {ρ : Type} {files : FileSystem Id} {decoder : Decoder Id ρ}

/-- A path loads if it has a name, its file is there and can be read, and the text in it is not empty
and can be decoded. -/
theorem loadOutcome_eq_ok_iff {path : String} {map : ρ} :
    loadOutcome files decoder path = .ok map ↔ path ≠ "" ∧ (files.holds path).run = .ok true ∧
      ∃ text, (files.readText path).run = .ok text ∧ text ≠ "" ∧
        (decoder.decode text).run = .ok map := by
  unfold loadOutcome load
  by_cases unnamed : path.isEmpty = true
  · rw [if_pos unnamed]
    refine iff_of_false (fun loads => by cases loads) ?_
    exact fun named => named.1 (String.isEmpty_iff.1 unnamed)
  · have named : path ≠ "" := fun unnamedToo => unnamed (String.isEmpty_iff.2 unnamedToo)
    rw [if_neg unnamed, Id.run_bind]
    rcases (files.holds path).run with fault | _ | _
    · simp
    · simp
    · dsimp only
      rw [Id.run_bind]
      cases (files.readText path).run with
      | error fault => simp
      | ok text =>
        dsimp only
        unfold decodeLoaded
        by_cases empty : text.isEmpty = true
        · rw [if_pos empty]
          simp [String.isEmpty_iff.1 empty]
        · have some : text ≠ "" := fun emptyToo => empty (String.isEmpty_iff.2 emptyToo)
          rw [if_neg empty, Id.run_bind]
          cases decoded : (decoder.decode text).run <;> simp [named, some, decoded]

/-- What a load can ask: nothing, whether there is something at its path, the text there too, or in
addition what that text says. -/
theorem loadExchanges_cases (files : FileSystem Id) (path : String) :
    loadExchanges files path = [] ∨
    (∃ held, loadExchanges files path = [.holds path held]) ∨
    (∃ text, loadExchanges files path = [.holds path (.ok true), .readText path text]) ∨
    ∃ text, loadExchanges files path =
        [.holds path (.ok true), .readText path (.ok text), .decode text] ∧
      path ≠ "" ∧ (files.holds path).run = .ok true ∧ (files.readText path).run = .ok text ∧
      text ≠ "" := by
  unfold loadExchanges attempt
  split
  · exact .inl rfl
  next named =>
    rcases (files.holds path).run with fault | _ | _
    · exact .inr (.inl ⟨_, rfl⟩)
    · exact .inr (.inl ⟨_, rfl⟩)
    · cases (files.readText path).run with
      | error fault => exact .inr (.inr (.inl ⟨_, rfl⟩))
      | ok text =>
        dsimp only
        split
        · exact .inr (.inr (.inl ⟨_, rfl⟩))
        next some =>
          rw [String.isEmpty_iff] at named some
          exact .inr (.inr (.inr ⟨text, rfl, named, rfl, rfl, some⟩))

/-- The exchanges of one load of a map path justify each other. -/
theorem eachBehind_justified_loadExchanges {mapPaths : List String} (files : FileSystem Id)
    {path : String} (isPath : path ∈ mapPaths) :
    EachBehind (Exchange.Justified mapPaths) (loadExchanges files path) := by
  have asked (held : Except Fault Bool) :
      EachBehind (Exchange.Justified mapPaths) ([] ++ [.holds path held]) :=
    EachBehind.concat_iff.2 ⟨.nil, isPath⟩
  have read (text : Except Fault String) : EachBehind (Exchange.Justified mapPaths)
      ([.holds path (.ok true)] ++ [.readText path text]) :=
    EachBehind.concat_iff.2 ⟨asked _, isPath, rfl⟩
  have decoded (text : String) : EachBehind (Exchange.Justified mapPaths)
      ([.holds path (.ok true), .readText path (.ok text)] ++ [.decode text]) :=
    EachBehind.concat_iff.2 ⟨read _, path, isPath, rfl⟩
  rcases loadExchanges_cases files path with
    shape | ⟨held, shape⟩ | ⟨text, shape⟩ | ⟨text, shape, -⟩ <;> rw [shape]
  · exact .nil
  · exact asked held
  · exact read text
  · exact decoded text

/-- One load asks at most once, and for its own path. -/
theorem countP_asksFor_loadExchanges_le (path other : String) :
    (loadExchanges files other).countP (Exchange.asksFor path) ≤
      if decide (other = path) then 1 else 0 := by
  rcases loadExchanges_cases files other with
    shape | ⟨_, shape⟩ | ⟨_, shape⟩ | ⟨_, shape, -⟩ <;>
    simp [shape, List.countP_cons, Exchange.asksFor]

/-- One load reads at most once, and its own path. -/
theorem countP_reads_loadExchanges_le (path other : String) :
    (loadExchanges files other).countP (Exchange.reads path) ≤
      if decide (other = path) then 1 else 0 := by
  rcases loadExchanges_cases files other with
    shape | ⟨_, shape⟩ | ⟨_, shape⟩ | ⟨_, shape, -⟩ <;>
    simp [shape, List.countP_cons, Exchange.reads]

/-- A load of the path has the text decoded. -/
def decodesAt (files : FileSystem Id) (text path : String) : Bool :=
  (loadExchanges files path).any (Exchange.decodes text)

/-- One load decodes at most once. -/
theorem countP_decodes_loadExchanges_le (text path : String) :
    (loadExchanges files path).countP (Exchange.decodes text) ≤
      if decodesAt files text path then 1 else 0 := by
  unfold decodesAt
  rcases loadExchanges_cases files path with
    shape | ⟨_, shape⟩ | ⟨_, shape⟩ | ⟨_, shape, -⟩ <;>
    simp [shape, List.countP_cons, Exchange.decodes]

/-- If a text that was loaded from some path is decoded for another one, that one loads too. -/
theorem loadOutcome_eq_of_decodesAt {path other text : String} {map : ρ}
    (loads : loadOutcome files decoder path = .ok map)
    (holdsText : (files.readText path).run = .ok text)
    (decodes : decodesAt files text other = true) :
    (files.readText other).run = .ok text ∧ loadOutcome files decoder other = .ok map := by
  obtain ⟨-, -, _, read, -, decoded⟩ := loadOutcome_eq_ok_iff.1 loads
  rw [holdsText] at read
  cases read
  unfold decodesAt at decodes
  rcases loadExchanges_cases files other with
    shape | ⟨_, shape⟩ | ⟨_, shape⟩ | ⟨found, shape, named, held, read, some⟩
  iterate 3 simp [shape, Exchange.decodes] at decodes
  have same : found = text := by simpa [shape, Exchange.decodes] using decodes
  subst same
  exact ⟨read, loadOutcome_eq_ok_iff.2 ⟨named, held, found, read, some, decoded⟩⟩

end MapCache

/-- What is bounded for each item of a list is bounded for all of them in turn. -/
theorem countP_flatMap_le {α β : Type} {counts : β → Bool} {parts : α → List β} {may : α → Bool}
    (bound : ∀ item, (parts item).countP counts ≤ if may item then 1 else 0) (items : List α) :
    (items.flatMap parts).countP counts ≤ items.countP may := by
  induction items with
  | nil => exact le_rfl
  | cons item items inductionHypothesis =>
    rw [List.flatMap_cons, List.countP_append, List.countP_cons, Nat.add_comm]
    exact Nat.add_le_add inductionHypothesis (bound item)

namespace Frame

section Attempts

variable {ρ : Type} {files : FileSystem Id} {decoder : Decoder Id ρ} {mapPaths : List String}
  {earlier : List Frame} {frame : Frame} {file path : String}

/-- A frame that needs a path asks for a line of its file, to which the path belongs. -/
theorem needs?_eq_some_iff : frame.needs? mapPaths = some path ↔
    frame.asksForLine = true ∧ findMapPath frame.file mapPaths = some path := by
  unfold needs?
  split
  next asks => simp [asks]
  next asksNot => simp [asksNot]

theorem hasLocation_of_asksForLine (asks : frame.asksForLine = true) :
    frame.hasLocation = true := by
  obtain ⟨line, isLine, -⟩ := (Option.any_eq_true _ _).1 asks
  simp [hasLocation, isLine]

/-- A frame triggers a failure if it needs a path that fails to load. -/
theorem triggers_of_needs? (needs : frame.needs? mapPaths = some path)
    (fails : isLoadFault (MapCache.loadOutcome files decoder path) = true) :
    frame.triggers files decoder mapPaths = true := by
  obtain ⟨asks, found⟩ := needs?_eq_some_iff.1 needs
  simp [triggers, hasLocation_of_asksForLine asks, found, asks, fails]

theorem loads?_eq_some_iff : frame.loads? files decoder mapPaths earlier = some path ↔
    anyTriggers files decoder mapPaths earlier frame.file = false ∧
      frame.needs? mapPaths = some path ∧ anyLoads files decoder mapPaths earlier path = false := by
  unfold loads?
  split
  next failed => simp [failed]
  next working => simp [working, Option.filter_eq_some_iff]

/-- The loads for frames stand in front of those for the frames behind them. -/
theorem attempts_append (first second : List Frame) :
    attempts files decoder mapPaths earlier (first ++ second) =
      attempts files decoder mapPaths earlier first ++
        attempts files decoder mapPaths (earlier ++ first) second := by
  induction first generalizing earlier with
  | nil => simp [attempts]
  | cons frame first inductionHypothesis => simp [attempts, inductionHypothesis]

theorem anyTriggers_concat : anyTriggers files decoder mapPaths (earlier ++ [frame]) file =
    (anyTriggers files decoder mapPaths earlier file ||
      frame.file = file && frame.triggers files decoder mapPaths) := by
  simp [anyTriggers]

/-- Whatever is loaded is loaded for some frame that needs it, whose file has not failed and whose
path was not loaded before. -/
theorem exists_of_mem_attempts {frames : List Frame}
    (isAttempt : (file, path) ∈ attempts files decoder mapPaths earlier frames) :
    (∃ frame ∈ frames, frame.file = file ∧ frame.needs? mapPaths = some path) ∧
      anyTriggers files decoder mapPaths earlier file = false ∧
      anyLoads files decoder mapPaths earlier path = false := by
  induction frames generalizing earlier with
  | nil => cases isAttempt
  | cons frame frames inductionHypothesis =>
    rcases List.mem_append.1 isAttempt with isHere | isLater
    · obtain ⟨found, isFound, ⟨⟩⟩ := List.mem_map.1 isHere
      obtain ⟨working, needs, fresh⟩ := loads?_eq_some_iff.1 (Option.mem_toList.1 isFound)
      exact ⟨⟨frame, List.mem_cons_self, rfl, needs⟩, working, fresh⟩
    · obtain ⟨⟨other, isFrame, isFile, needs⟩, working, fresh⟩ := inductionHypothesis isLater
      rw [anyTriggers_concat, Bool.or_eq_false_iff] at working
      rw [anyLoads_concat, Bool.or_eq_false_iff] at fresh
      exact ⟨⟨other, List.mem_cons_of_mem _ isFrame, isFile, needs⟩, working.1, fresh.1⟩

/-- Whatever is loaded is a map path. -/
theorem mem_of_mem_attempts {frames : List Frame}
    (isAttempt : (file, path) ∈ attempts files decoder mapPaths earlier frames) :
    path ∈ mapPaths := by
  obtain ⟨⟨frame, -, -, needs⟩, -⟩ := exists_of_mem_attempts isAttempt
  exact List.mem_of_find?_eq_some (needs?_eq_some_iff.1 needs).2

/-- A path that can be loaded is loaded at most once. -/
theorem count_attempts_le_one (loads : (MapCache.loadOutcome files decoder path).isOk = true)
    (frames : List Frame) :
    ((attempts files decoder mapPaths earlier frames).map Prod.snd).count path ≤ 1 := by
  induction frames generalizing earlier with
  | nil => exact Nat.zero_le _
  | cons frame frames inductionHypothesis =>
    rw [attempts, List.map_append, List.count_append]
    cases loaded : frame.loads? files decoder mapPaths earlier with
    | none => simpa using inductionHypothesis
    | some other =>
      by_cases same : other = path
      · subst same
        obtain ⟨-, needs, -⟩ := loads?_eq_some_iff.1 loaded
        have nothing : ((attempts files decoder mapPaths (earlier ++ [frame]) frames).map
            Prod.snd).count other = 0 := by
          rw [List.count_eq_zero]
          intro isPath
          obtain ⟨⟨file, path⟩, isLater, rfl⟩ := List.mem_map.1 isPath
          have fresh := (exists_of_mem_attempts isLater).2.2
          rw [anyLoads_concat, loads, needs] at fresh
          simp at fresh
        simp [nothing]
      · simpa [same] using inductionHypothesis

/-- A path that fails to load is tried at most once for a file. -/
theorem nodup_attempted_files
    (fails : isLoadFault (MapCache.loadOutcome files decoder path) = true) (frames : List Frame) :
    (((attempts files decoder mapPaths earlier frames).filter (·.2 = path)).map Prod.fst).Nodup := by
  induction frames generalizing earlier with
  | nil => exact List.nodup_nil
  | cons frame frames inductionHypothesis =>
    rw [attempts, List.filter_append]
    cases loaded : frame.loads? files decoder mapPaths earlier with
    | none => simpa using inductionHypothesis
    | some other =>
      by_cases same : other = path
      · subst same
        obtain ⟨-, needs, -⟩ := loads?_eq_some_iff.1 loaded
        have triggers := triggers_of_needs? needs fails
        have others : frame.file ∉ ((attempts files decoder mapPaths (earlier ++ [frame])
            frames).filter (·.2 = other)).map Prod.fst := by
          intro isLater
          obtain ⟨⟨file, path⟩, isAttempt, rfl⟩ := List.mem_map.1 isLater
          have working := (exists_of_mem_attempts (List.mem_filter.1 isAttempt).1).2.1
          rw [anyTriggers_concat, triggers] at working
          simp at working
        rw [Option.toList_some, List.map_singleton, ← List.filter_append, List.singleton_append,
          List.filter_cons_of_pos (by simp), List.map_cons]
        exact List.nodup_cons.2 ⟨others, inductionHypothesis⟩
      · simpa [same] using inductionHypothesis

end Attempts

section Bounds

variable {ρ : Type} {files : FileSystem Id} {decoder : Decoder Id ρ} {mapPaths : List String}
  {earlier frames : List Frame} {path : String}

/-- What the loads for frames ask is justified. -/
theorem eachBehind_justified_attemptExchanges (files : FileSystem Id) (decoder : Decoder Id ρ)
    (mapPaths : List String) (earlier frames : List Frame) :
    EachBehind (Exchange.Justified mapPaths)
      (attemptExchanges files decoder mapPaths earlier frames) := by
  have configured : ∀ attempt ∈ attempts files decoder mapPaths earlier frames,
      attempt.2 ∈ mapPaths := fun attempt isAttempt => mem_of_mem_attempts isAttempt
  unfold attemptExchanges
  generalize attempts files decoder mapPaths earlier frames = loads at configured
  induction loads with
  | nil => exact .nil
  | cons attempt loads inductionHypothesis =>
    obtain ⟨isPath, configured⟩ := List.forall_mem_cons.1 configured
    exact (MapCache.eachBehind_justified_loadExchanges files isPath).append
      (inductionHypothesis configured) fun _ _ justified => justified.further _

/-- The exchanges of a kind that some loads have once, and others not at all, are at most as many as
the former loads. -/
theorem countP_attemptExchanges_le {counts : Exchange → Bool} {may : String → Bool}
    (bound : ∀ other, (MapCache.loadExchanges files other).countP counts ≤
      if may other then 1 else 0) :
    (attemptExchanges files decoder mapPaths earlier frames).countP counts ≤
      ((attempts files decoder mapPaths earlier frames).map Prod.snd).countP may := by
  rw [List.countP_map]
  exact countP_flatMap_le (fun attempt => bound attempt.2) _

/-- A path that fails to load is asked for at most once for every file that it belongs to. -/
theorem countP_asksFor_attemptExchanges_le
    (fails : isLoadFault (MapCache.loadOutcome files decoder path) = true) :
    (attemptExchanges files decoder mapPaths earlier frames).countP (Exchange.asksFor path) ≤
      (((frames.map Frame.file).filter fun file =>
        findMapPath file mapPaths = some path).toFinset).card := by
  refine (countP_attemptExchanges_le (MapCache.countP_asksFor_loadExchanges_le path)).trans ?_
  have distinct : (((attempts files decoder mapPaths earlier frames).filter
      ((fun other => decide (other = path)) ∘ Prod.snd)).map Prod.fst).Nodup :=
    nodup_attempted_files fails frames
  rw [List.countP_map, List.countP_eq_length_filter, ← List.length_map Prod.fst,
    ← List.toFinset_card_of_nodup distinct]
  refine Finset.card_le_card fun file isTried => ?_
  rw [List.mem_toFinset] at isTried ⊢
  obtain ⟨⟨file, other⟩, isIn, rfl⟩ := List.mem_map.1 isTried
  obtain ⟨isAttempt, same⟩ := List.mem_filter.1 isIn
  obtain rfl : other = path := of_decide_eq_true same
  obtain ⟨⟨frame, isFrame, rfl, needs⟩, -⟩ := exists_of_mem_attempts isAttempt
  exact List.mem_filter.2 ⟨List.mem_map.2 ⟨frame, isFrame, rfl⟩,
    decide_eq_true (needs?_eq_some_iff.1 needs).2⟩

/-- A text that can be loaded is decoded at most once for every map path whose text it is. -/
theorem countP_decodes_attemptExchanges_le {text : String} {map : ρ}
    (loads : MapCache.loadOutcome files decoder path = .ok map)
    (holdsText : (files.readText path).run = .ok text) :
    (attemptExchanges files decoder mapPaths earlier frames).countP (Exchange.decodes text) ≤
      ((mapPaths.filter fun other => (files.readText other).run.toOption = some text).toFinset).card
    := by
  refine (countP_attemptExchanges_le (MapCache.countP_decodes_loadExchanges_le text)).trans ?_
  have distinct : (((attempts files decoder mapPaths earlier frames).map Prod.snd).filter
      (MapCache.decodesAt files text)).Nodup := by
    rw [List.nodup_iff_count_le_one]
    intro other
    by_cases decodes : MapCache.decodesAt files text other = true
    · have alsoLoads := (MapCache.loadOutcome_eq_of_decodesAt loads holdsText decodes).2
      rw [List.count_filter decodes]
      exact count_attempts_le_one (by rw [alsoLoads]; rfl) frames
    · rw [List.count_eq_zero_of_not_mem fun isIn => decodes (List.mem_filter.1 isIn).2]
      exact Nat.zero_le _
  rw [List.countP_eq_length_filter, ← List.toFinset_card_of_nodup distinct]
  refine Finset.card_le_card fun other isDecoded => ?_
  rw [List.mem_toFinset] at isDecoded ⊢
  obtain ⟨isPath, decodes⟩ := List.mem_filter.1 isDecoded
  obtain ⟨⟨file, other⟩, isAttempt, rfl⟩ := List.mem_map.1 isPath
  have alsoHolds := (MapCache.loadOutcome_eq_of_decodesAt loads holdsText decodes).1
  exact List.mem_filter.2 ⟨mem_of_mem_attempts isAttempt, by simp [alsoHolds, Except.toOption]⟩

end Bounds

end Frame

/-- A frame asks for nothing if it has no place, or no line that there can be, or no path belongs to
its file, or its file has failed. -/
def Frame.Idle (mapPaths : List String) (failed : String → Bool) (frame : Frame) : Prop :=
  frame.hasLocation = false ∨ frame.asksForLine = false ∨ findMapPath frame.file mapPaths = none ∨
    failed frame.file = true

/-- What is asked for a stack's frames is bounded and has a reason. -/
structure Frugal {ρ : Type} (files : FileSystem Id) (decoder : Decoder Id ρ)
    (mapPaths : List String) (frames : List Frame) (exchanges : List Exchange) : Prop where
  /-- Exactly the loads for the frames up to some frame have taken place. -/
  attempted : ∃ reached, exchanges =
    Frame.attemptExchanges files decoder mapPaths [] (frames.take reached)
  /-- Only map paths are asked for, and they are read only when they are there. -/
  justified : EachBehind (Exchange.Justified mapPaths) exchanges
  /-- A path that can be loaded is asked for, read and decoded at most once. -/
  once : ∀ path map, MapCache.loadOutcome files decoder path = .ok map →
    exchanges.countP (Exchange.asksFor path) ≤ 1 ∧ exchanges.countP (Exchange.reads path) ≤ 1 ∧
      Exchange.decodings path exchanges ≤ 1
  /-- Its text is decoded at most as often as there are map paths whose text it is. -/
  decodedOnce : ∀ path map text, MapCache.loadOutcome files decoder path = .ok map →
    (files.readText path).run = .ok text → exchanges.countP (Exchange.decodes text) ≤
      ((mapPaths.filter fun other => (files.readText other).run.toOption = some text).toFinset).card
  /-- A path that fails to load is tried at most once for a file. -/
  oncePerFile : ∀ path cause, MapCache.loadOutcome files decoder path = .error (.load cause) →
    ∀ reached, (((Frame.attempts files decoder mapPaths [] (frames.take reached)).filter
      (·.2 = path)).map Prod.fst).Nodup
  /-- So it is asked for at most as often as there are files that it belongs to. -/
  perFile : ∀ path cause, MapCache.loadOutcome files decoder path = .error (.load cause) →
    exchanges.countP (Exchange.asksFor path) ≤ (((frames.map Frame.file).filter fun file =>
      findMapPath file mapPaths = some path).toFinset).card
  /-- Nothing is loaded for an idle frame behind others. -/
  idle : ∀ front frame, frame.Idle mapPaths (Frame.anyTriggers files decoder mapPaths front) →
    Frame.attempts files decoder mapPaths [] (front ++ [frame]) =
      Frame.attempts files decoder mapPaths [] front

theorem Frame.attempts_singleton_of_idle {ρ : Type} {files : FileSystem Id} {decoder : Decoder Id ρ}
    {mapPaths : List String} {earlier : List Frame} {frame : Frame}
    (idle : frame.Idle mapPaths (anyTriggers files decoder mapPaths earlier)) :
    attempts files decoder mapPaths earlier [frame] = [] := by
  have nothing : frame.loads? files decoder mapPaths earlier = none := by
    rw [Option.eq_none_iff_forall_ne_some]
    intro path loads
    obtain ⟨working, needs, -⟩ := loads?_eq_some_iff.1 loads
    obtain ⟨asks, found⟩ := needs?_eq_some_iff.1 needs
    rcases idle with nowhere | asksNot | missing | failed
    · rw [hasLocation_of_asksForLine asks] at nowhere
      cases nowhere
    · rw [asks] at asksNot
      cases asksNot
    · rw [found] at missing
      cases missing
    · rw [working] at failed
      cases failed
  simp [attempts, nothing]

/-- The loads for some of the frames, as many as were reached, are frugal. -/
theorem frugal_attemptExchanges {ρ : Type} (files : FileSystem Id) (decoder : Decoder Id ρ)
    (mapPaths : List String) (frames : List Frame) (reached : Nat) :
    Frugal files decoder mapPaths frames
      (Frame.attemptExchanges files decoder mapPaths [] (frames.take reached)) where
  attempted := ⟨reached, rfl⟩
  justified := Frame.eachBehind_justified_attemptExchanges files decoder mapPaths [] _
  once := by
    intro path map loads
    have single : ((Frame.attempts files decoder mapPaths [] (frames.take reached)).map
        Prod.snd).countP (fun other => decide (other = path)) ≤ 1 := by
      simpa [List.count, beq_eq_decide] using
        Frame.count_attempts_le_one (by rw [loads]; rfl) (frames.take reached)
    have asked := (Frame.countP_attemptExchanges_le
      (MapCache.countP_asksFor_loadExchanges_le path)).trans single
    have read := (Frame.countP_attemptExchanges_le
      (MapCache.countP_reads_loadExchanges_le path)).trans single
    exact ⟨asked, read, (Exchange.decodings_le_countP_reads path _).trans read⟩
  decodedOnce := fun _ _ _ loads holdsText =>
    Frame.countP_decodes_attemptExchanges_le loads holdsText
  oncePerFile := fun _ cause fails reached =>
    Frame.nodup_attempted_files (Frame.isLoadFault_iff.2 ⟨cause, fails⟩) (frames.take reached)
  perFile := by
    intro path cause fails
    refine (Frame.countP_asksFor_attemptExchanges_le
      (Frame.isLoadFault_iff.2 ⟨cause, fails⟩)).trans (Finset.card_le_card fun file isFile => ?_)
    rw [List.mem_toFinset] at isFile ⊢
    exact ((List.take_sublist _ _).map _ |>.filter _).subset isFile
  idle := by
    intro front frame idle
    rw [Frame.attempts_append, List.nil_append, Frame.attempts_singleton_of_idle idle,
      List.append_nil]

/-- Converting an idle frame leaves the outside alone. -/
theorem Frame.convert_of_idle {σ ρ : Type} (files : FileSystem (StateM σ))
    (decoder : Decoder (StateM σ) ρ) {mapPaths : List String} {progress : Progress ρ} {frame : Frame}
    (idle : frame.Idle mapPaths progress.failed.contains) (state : σ) :
    ((frame.convert files decoder mapPaths progress).run state).2 = state := by
  unfold convert convertBy
  split
  · rfl
  next working =>
    split
    · rfl
    next somewhere =>
      cases found : findMapPath frame.file mapPaths with
      | none => rfl
      | some path =>
        have asksNot : frame.asksForLine = false := by
          rcases idle with nowhere | asksNot | missing | failed
          · simp [nowhere] at somewhere
          · exact asksNot
          · rw [found] at missing
            cases missing
          · exact absurd failed working
        unfold lookUpBy
        cases line : frame.line with
        | none => rfl
        | some number =>
          have tooSmall : number < 1 := by simpa [asksForLine, line] using asksNot
          dsimp only
          rw [if_pos tooSmall]
          rfl

/-- With fixed files, and a decoder that decodes a text alike every time, what a conversion asks is
bounded and has a reason, and an idle frame asks nobody, whatever was remembered in front of it. -/
theorem convertStack_frugal {σ ρ : Type} {files : FileSystem (StateM σ)}
    {decoder : Decoder (StateM σ) ρ} {fixedFiles : FileSystem Id} {fixedDecoder : Decoder Id ρ}
    (answers : files.AnswersAs fixedFiles) (decodes : decoder.DecodesAs fixedDecoder)
    (reader : StackReader) (config : Config) {stack : String} {frames : List Frame}
    (reads : reader stack = .ok frames) (outside : σ) :
    Frugal fixedFiles fixedDecoder config.mapPaths frames
        ((convertStack files.recorded decoder.recorded reader config stack).run
          ⟨outside, []⟩).2.exchanges ∧
      ∀ (progress : Progress ρ) (frame : Frame),
        frame.Idle config.mapPaths progress.failed.contains → ∀ state,
        ((frame.convert files.recorded decoder.recorded config.mapPaths progress).run state).2 = state
    := by
  have adds : Adds (convertStack files.recorded decoder.recorded reader config stack)
      fun _ added => ∃ reached, added = Frame.attemptExchanges fixedFiles fixedDecoder
        config.mapPaths [] (frames.take reached) := by
    unfold convertStack convertStackBy
    rw [reads]
    split
    · exact .pure ⟨0, rfl⟩
    · cases frames with
      | nil => exact .pure ⟨0, rfl⟩
      | cons frame frames =>
        refine .bind (Frame.convertAll_adds answers decodes (frame :: frames) .start .start) ?_
        rintro lines _ ⟨reached, rfl⟩
        cases lines with
        | error fault => exact .pure ⟨reached, List.append_nil _⟩
        | ok lines => exact .pure ⟨reached, List.append_nil _⟩
  obtain ⟨_, same, reached, rfl⟩ := adds ⟨outside, []⟩
  refine ⟨?_, fun progress frame idle => Frame.convert_of_idle _ _ idle⟩
  rw [same]
  exact frugal_attemptExchanges fixedFiles fixedDecoder config.mapPaths frames reached

/-- What is asked for frames whose files are there, gone, or cannot be asked for is bounded. -/
theorem convertStack_frugal_of_mixedFiles :
    Frugal mixedFiles mixedDecoder ["a.js.map", "b.js.map", "c.js.map"] mixedFrames
        ((convertStack (FileSystem.steady mixedFiles).recorded (Decoder.steady mixedDecoder).recorded
          (fun _ => .ok mixedFrames)
          ⟨["a.js.map", "b.js.map", "c.js.map"], by decide, by decide⟩ "Error: lost").run
          ⟨(), []⟩).2.exchanges ∧
      ∀ (progress : Progress Unit) (frame : Frame),
        frame.Idle ["a.js.map", "b.js.map", "c.js.map"] progress.failed.contains →
        ∀ state : Recorded Unit,
        ((frame.convert (FileSystem.steady mixedFiles).recorded
          (Decoder.steady mixedDecoder).recorded ["a.js.map", "b.js.map", "c.js.map"]
          progress).run state).2 = state :=
  convertStack_frugal (FileSystem.steady_answersAs mixedFiles)
    (Decoder.steady_answersAs mixedDecoder).toDecodesAs _
    ⟨["a.js.map", "b.js.map", "c.js.map"], by decide, by decide⟩ rfl ()

end Retrace
