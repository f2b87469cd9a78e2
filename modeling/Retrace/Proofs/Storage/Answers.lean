import Retrace.Conversion.MapCache

/-!
# Answers from outside

Whoever answers the questions about files, and whoever decodes source maps, may keep a state of its
own and change its mind from one call to the next. `Always` is what holds of an answer in every
state; it composes along `bind`, so a statement about a conversion is put together from statements
about its calls. `AnswersAs` singles out those whose answers do not depend on the state at all, and
`DecodesAs` the decoders of which this is known for texts only.
-/

namespace Retrace

variable {σ α β : Type}

/-- Every answer of the action is good, in whatever state it is asked. -/
def Always (action : StateM σ α) (good : α → Prop) : Prop :=
  ∀ state, good (action.run state).1

namespace Always

/-- An action without calls answers its value. -/
theorem pure {value : α} {good : α → Prop} (holds : good value) :
    Always (Pure.pure value : StateM σ α) good := by
  intro state
  exact holds

/-- What holds of every answer of the first action may be used for the actions behind it. -/
theorem bind {action : StateM σ α} {next : α → StateM σ β} {good : α → Prop} {better : β → Prop}
    (first : Always action good) (rest : ∀ value, good value → Always (next value) better) :
    Always (action >>= next) better := by
  intro state
  exact rest _ (first state) _

/-- Nothing is known of an answer by itself. -/
theorem trivial (action : StateM σ α) : Always action fun _ => True := by
  intro state
  exact True.intro

end Always

/-- The second of two actions is done where the first one ended. -/
theorem run_bind (action : StateM σ α) (next : α → StateM σ β) (state : σ) :
    (action >>= next).run state = (next (action.run state).1).run (action.run state).2 := rfl

/-- The files answer as fixed ones do: a path gives the same answer in every state. -/
structure FileSystem.AnswersAs (files : FileSystem (StateM σ)) (fixed : FileSystem Id) : Prop where
  holds : ∀ path, Always (files.holds path) (· = (fixed.holds path).run)
  readText : ∀ path, Always (files.readText path) (· = (fixed.readText path).run)

/-- The decoder decodes as a fixed one does: a text gives the same source map in every state. -/
structure Decoder.DecodesAs {ρ : Type} (decoder : Decoder (StateM σ) ρ) (fixed : Decoder Id ρ) :
    Prop where
  decode : ∀ text, Always (decoder.decode text) (· = (fixed.decode text).run)

/-- The decoder answers as a fixed one does: a text gives the same source map in every state, and a
query the same place. -/
structure Decoder.AnswersAs {ρ : Type} (decoder : Decoder (StateM σ) ρ) (fixed : Decoder Id ρ) :
    Prop extends decoder.DecodesAs fixed where
  locate : ∀ map line column,
    Always (decoder.locate map line column) (· = (fixed.locate map line column).run)

/-- Files that answer as fixed ones do and keep whatever state they are given. -/
def FileSystem.steady (fixed : FileSystem Id) : FileSystem (StateM σ) where
  holds path := pure (fixed.holds path).run
  isDirectory path := pure (fixed.isDirectory path).run
  readText path := pure (fixed.readText path).run
  listDirectory path := pure (fixed.listDirectory path).run

/-- A decoder that answers as a fixed one does and keeps whatever state it is given. -/
def Decoder.steady {ρ : Type} (fixed : Decoder Id ρ) : Decoder (StateM σ) ρ where
  decode text := pure (fixed.decode text).run
  locate map line column := pure (fixed.locate map line column).run

theorem FileSystem.steady_answersAs (fixed : FileSystem Id) :
    (steady fixed : FileSystem (StateM σ)).AnswersAs fixed where
  holds := fun _ => .pure rfl
  readText := fun _ => .pure rfl

theorem Decoder.steady_answersAs {ρ : Type} (fixed : Decoder Id ρ) :
    (steady fixed : Decoder (StateM σ) ρ).AnswersAs fixed where
  decode := fun _ => .pure rfl
  locate := fun _ _ _ => .pure rfl

namespace MapCache

variable {ρ : Type}

/-- What one load of a path gives when all answers are fixed. -/
def loadOutcome (files : FileSystem Id) (decoder : Decoder Id ρ) (path : String) :
    Except Fault ρ :=
  (load files decoder path).run

/-- Decoding a text with fixed answers gives the same outcome in every state. -/
theorem decodeLoaded_always {decoder : Decoder (StateM σ) ρ} {fixed : Decoder Id ρ}
    (decodes : decoder.DecodesAs fixed) (path text : String) :
    Always (decodeLoaded decoder path text) (· = (decodeLoaded fixed path text).run) := by
  unfold decodeLoaded
  split
  · exact .pure rfl
  · rw [Id.run_bind]
    refine .bind (decodes.decode text) ?_
    rintro _ rfl
    cases (fixed.decode text).run with
    | error fault => exact .pure rfl
    | ok map => exact .pure rfl

/-- A load with fixed answers gives the same outcome in every state. -/
theorem load_always {files : FileSystem (StateM σ)} {decoder : Decoder (StateM σ) ρ}
    {fixedFiles : FileSystem Id} {fixedDecoder : Decoder Id ρ}
    (answers : files.AnswersAs fixedFiles) (decodes : decoder.DecodesAs fixedDecoder)
    (path : String) :
    Always (load files decoder path) (· = loadOutcome fixedFiles fixedDecoder path) := by
  unfold loadOutcome load
  split
  · exact .pure rfl
  · rw [Id.run_bind]
    refine .bind (answers.holds path) ?_
    rintro _ rfl
    rcases (fixedFiles.holds path).run with fault | _ | _
    · exact .pure rfl
    · exact .pure rfl
    · simp only [Id.run_bind]
      refine .bind (answers.readText path) ?_
      rintro _ rfl
      cases (fixedFiles.readText path).run with
      | error fault => exact .pure rfl
      | ok text => exact decodeLoaded_always decodes path text

end MapCache

end Retrace
