import Mathlib.Data.List.Induction
import Retrace.Proofs.Storage.Answers

/-!
# Exchanges with the outside

A recorder passes every question on to whoever answers it, and notes the question with its answer. What
was asked is then part of the state that an action leaves behind, and `Adds` says what the noted
exchanges have to do with the answer of the action. Like `Always`, it composes along `bind`. Looking
a place up in a decoded source map asks nobody for a file or for a decoding, so it is not noted.

What comes in an order is often good or bad by what came before it. `EachBehind` says so of every item
of a list.
-/

namespace Retrace

/-- A question that was passed on, and what was answered. -/
inductive Exchange where
  | holds (path : String) (answer : Except Fault Bool)
  | isDirectory (path : String) (answer : Except Fault Bool)
  | readText (path : String) (answer : Except Fault String)
  | listDirectory (path : String) (answer : Except Fault (List String))
  /-- A text was given to the decoder. -/
  | decode (text : String)

namespace Exchange

/-- It was asked whether there is something at the path. -/
def asksFor (path : String) : Exchange → Bool
  | .holds other _ => other = path
  | _ => false

/-- The text at the path was asked for. -/
def reads (path : String) : Exchange → Bool
  | .readText other _ => other = path
  | _ => false

/-- The text was given to the decoder. -/
def decodes (text : String) : Exchange → Bool
  | .decode other => other = text
  | _ => false

/-- Some text was given to the decoder. -/
def isDecode : Exchange → Bool
  | .decode _ => true
  | _ => false

/-- How often what was read at the path was decoded directly behind. -/
def decodings (path : String) (exchanges : List Exchange) : Nat :=
  (exchanges.zip exchanges.tail).countP fun pair => pair.1.reads path && pair.2.isDecode

/-- Nothing is decoded more often than it is read. -/
theorem decodings_le_countP_reads (path : String) (exchanges : List Exchange) :
    decodings path exchanges ≤ exchanges.countP (reads path) := by
  unfold decodings
  generalize exchanges.tail = behind
  induction exchanges generalizing behind with
  | nil => exact Nat.le_refl _
  | cons exchange exchanges inductionHypothesis =>
    cases behind with
    | nil => exact Nat.zero_le _
    | cons next behind =>
      have rest := inductionHypothesis behind
      rw [List.zip_cons_cons, List.countP_cons, List.countP_cons]
      cases exchange.reads path
      · simpa using rest
      · cases next.isDecode <;> simp <;> omega

end Exchange

/-- A state of the outside, and the exchanges with it in their order. -/
structure Recorded (σ : Type) where
  outside : σ
  exchanges : List Exchange

variable {σ α β ρ : Type}

/-- Does an action outside and notes what its answer tells to note. -/
def noted (action : StateM σ α) (note : α → List Exchange) : StateM (Recorded σ) α := fun state =>
  let (answer, outside) := action.run state.outside
  (answer, ⟨outside, state.exchanges ++ note answer⟩)

/-- Files whose questions are noted. -/
def FileSystem.recorded (files : FileSystem (StateM σ)) : FileSystem (StateM (Recorded σ)) where
  holds path := noted (files.holds path) fun answer => [.holds path answer]
  isDirectory path := noted (files.isDirectory path) fun answer => [.isDirectory path answer]
  readText path := noted (files.readText path) fun answer => [.readText path answer]
  listDirectory path := noted (files.listDirectory path) fun answer => [.listDirectory path answer]

/-- A decoder whose decodings are noted. -/
def Decoder.recorded (decoder : Decoder (StateM σ) ρ) : Decoder (StateM (Recorded σ)) ρ where
  decode text := noted (decoder.decode text) fun _ => [.decode text]
  locate map line column := noted (decoder.locate map line column) fun _ => []

theorem FileSystem.AnswersAs.recorded {files : FileSystem (StateM σ)} {fixed : FileSystem Id}
    (answers : files.AnswersAs fixed) : files.recorded.AnswersAs fixed where
  holds := fun path state => answers.holds path state.outside
  readText := fun path state => answers.readText path state.outside

theorem Decoder.DecodesAs.recorded {decoder : Decoder (StateM σ) ρ} {fixed : Decoder Id ρ}
    (decodes : decoder.DecodesAs fixed) : decoder.recorded.DecodesAs fixed where
  decode := fun text state => decodes.decode text state.outside

/-- Every item of a list is good behind the items in front of it. -/
def EachBehind (good : List α → α → Prop) (items : List α) : Prop :=
  ∀ front item behind, items = front ++ item :: behind → good front item

namespace EachBehind

variable {good : List α → α → Prop} {items : List α} {last : α}

theorem nil : EachBehind good [] := by
  intro front item behind split
  cases front <;> cases split

/-- An item at the end is one more that has to be good. -/
theorem concat_iff : EachBehind good (items ++ [last]) ↔ EachBehind good items ∧ good items last := by
  constructor
  · intro each
    refine ⟨fun front item behind split => ?_, each items last [] rfl⟩
    exact each front item (behind ++ [last]) (by rw [split, List.append_assoc, List.cons_append])
  · rintro ⟨each, isGood⟩ front item behind split
    rcases List.eq_nil_or_concat behind with rfl | ⟨behind, other, rfl⟩
    · obtain ⟨rfl, ⟨⟩⟩ := List.append_inj' split rfl
      exact isGood
    · have shifted : front ++ item :: behind.concat other = (front ++ item :: behind) ++ [other] := by
        simp
      obtain ⟨rfl, -⟩ := List.append_inj' (split.trans shifted) rfl
      exact each _ _ _ rfl

/-- Two lists in turn, if it does no harm to stand behind the first one. -/
theorem append {more : List α} (each : EachBehind good items) (others : EachBehind good more)
    (harmless : ∀ front item, good front item → good (items ++ front) item) :
    EachBehind good (items ++ more) := by
  induction more using List.reverseRecOn with
  | nil => simpa using each
  | append_singleton more last inductionHypothesis =>
    obtain ⟨others, isGood⟩ := concat_iff.1 others
    rw [← List.append_assoc]
    exact concat_iff.2 ⟨inductionHypothesis others, harmless _ _ isGood⟩

end EachBehind

/-- Whenever the action is done, the exchanges that it adds are good for its answer. -/
def Adds (action : StateM (Recorded σ) α) (good : α → List Exchange → Prop) : Prop :=
  ∀ state, ∃ added, (action.run state).2.exchanges = state.exchanges ++ added ∧
    good (action.run state).1 added

namespace Adds

/-- An action without questions adds nothing. -/
theorem pure {value : α} {good : α → List Exchange → Prop} (holds : good value []) :
    Adds (Pure.pure value : StateM (Recorded σ) α) good := by
  intro state
  exact ⟨[], (List.append_nil _).symm, holds⟩

/-- What two actions add in turn stands one behind the other. -/
theorem bind {action : StateM (Recorded σ) α} {next : α → StateM (Recorded σ) β}
    {good : α → List Exchange → Prop} {better : β → List Exchange → Prop}
    (first : Adds action good)
    (rest : ∀ value added, good value added →
      Adds (next value) fun answer more => better answer (added ++ more)) :
    Adds (action >>= next) better := by
  intro state
  obtain ⟨added, before, isGood⟩ := first state
  obtain ⟨more, behind, isBetter⟩ := rest _ added isGood (action.run state).2
  refine ⟨added ++ more, ?_, isBetter⟩
  rw [← List.append_assoc, ← before]
  exact behind

/-- What always holds of an answer may be used beside what its exchanges tell. -/
theorem of_always {action : StateM (Recorded σ) α} {good : α → Prop}
    {also : α → List Exchange → Prop} (always : Always action good) (adds : Adds action also) :
    Adds action fun answer added => good answer ∧ also answer added := by
  intro state
  obtain ⟨added, behind, isAlso⟩ := adds state
  exact ⟨added, behind, always state, isAlso⟩

/-- A noted action adds its note. -/
theorem noted (action : StateM σ α) (note : α → List Exchange) :
    Adds (noted action note) fun answer added => added = note answer := by
  intro state
  exact ⟨_, rfl, rfl⟩

/-- Looking a place up is not noted. -/
theorem locate (decoder : Decoder (StateM σ) ρ) (map : ρ) (line : Int) (column : Option Int) :
    Adds (decoder.recorded.locate map line column) fun _ added => added = [] :=
  noted _ _

end Adds

/-- A noted action answers as it does without the note. -/
theorem run_noted (action : StateM σ α) (note : α → List Exchange) (state : Recorded σ) :
    (noted action note).run state =
      ((action.run state.outside).1, ⟨(action.run state.outside).2,
        state.exchanges ++ note (action.run state.outside).1⟩) := rfl

namespace MapCache

/-- The exchanges of one load of a path, by what is answered to its two questions. -/
def attempt (path : String) (held : Except Fault Bool) (text : Except Fault String) :
    List Exchange :=
  if path.isEmpty then []
  else .holds path held ::
    match held with
    | .ok true => .readText path text ::
      match text with
      | .ok text => if text.isEmpty then [] else [.decode text]
      | .error _ => []
    | _ => []

/-- A load of a path with a name asks first whether there is something at the path. -/
theorem attempt_of_named {path : String} (named : path ≠ "") (held : Except Fault Bool)
    (text : Except Fault String) :
    ∃ rest, attempt path held text = .holds path held :: rest := by
  have unempty : ¬ path.isEmpty = true := fun isEmpty => named (String.isEmpty_iff.1 isEmpty)
  exact ⟨_, if_neg unempty⟩

/-- Only a text that is not empty is decoded. -/
theorem decodeLoaded_exchanges (decoder : Decoder (StateM σ) ρ) (path text : String)
    (state : Recorded σ) :
    ((decodeLoaded decoder.recorded path text).run state).2.exchanges =
      state.exchanges ++ if text.isEmpty then [] else [.decode text] := by
  unfold decodeLoaded
  split
  · exact (List.append_nil _).symm
  · rw [run_bind]
    split <;> rfl

/-- A load asks whether there is something at its path, reads it if there is, and decodes what it
read if that is not empty. -/
theorem load_exchanges (files : FileSystem (StateM σ)) (decoder : Decoder (StateM σ) ρ)
    (path : String) (state : Recorded σ) :
    ((load files.recorded decoder.recorded path).run state).2.exchanges =
      state.exchanges ++ attempt path ((files.holds path).run state.outside).1
        ((files.readText path).run ((files.holds path).run state.outside).2).1 := by
  unfold load attempt
  split
  · exact (List.append_nil _).symm
  · simp only [run_bind, FileSystem.recorded, run_noted]
    generalize (files.holds path).run state.outside = held
    obtain ⟨held, outside⟩ := held
    rcases held with fault | _ | _
    · rfl
    · rfl
    · simp only [run_bind, run_noted]
      generalize (files.readText path).run outside = text
      obtain ⟨text, outside⟩ := text
      cases text with
      | error fault => exact List.append_assoc ..
      | ok text =>
        dsimp only
        rw [decodeLoaded_exchanges, List.append_assoc, List.append_assoc]
        rfl

end MapCache

end Retrace
