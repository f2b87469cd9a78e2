import Retrace.Proofs.Storage.Answers

/-!
# Where faults come from

The library raises a few faults of its own while it converts frames, and each of them can be told.
Every other fault was answered by the files or by the decoder, or telling such a fault ended in it.
So a fault that cannot be told comes from outside.
-/

namespace Retrace

variable {σ ρ : Type} {telling : Telling} {files : FileSystem (StateM σ)}
  {decoder : Decoder (StateM σ) ρ}

/-- A fault comes from outside: the files or the decoder answer it in some state, or to tell a fault
from outside ends in it. -/
inductive Outside (telling : Telling) (files : FileSystem (StateM σ))
    (decoder : Decoder (StateM σ) ρ) : Fault → Prop
  | holds {path : String} {state : σ} {fault : Fault}
      (answered : ((files.holds path).run state).1 = .error fault) :
      Outside telling files decoder fault
  | readText {path : String} {state : σ} {fault : Fault}
      (answered : ((files.readText path).run state).1 = .error fault) :
      Outside telling files decoder fault
  | locate {map : ρ} {line : Int} {column : Option Int} {state : σ} {fault : Fault}
      (answered : ((decoder.locate map line column).run state).1 = .error fault) :
      Outside telling files decoder fault
  | told {fault cause : Fault} (outside : Outside telling files decoder fault)
      (untold : telling.words fault = .error cause) : Outside telling files decoder cause

/-- A fault is one of the library's own, or it comes from outside. -/
def HasOrigin (telling : Telling) (files : FileSystem (StateM σ)) (decoder : Decoder (StateM σ) ρ)
    (fault : Fault) : Prop :=
  fault.isOwn = true ∨ Outside telling files decoder fault

/-- A fault that cannot be told comes from outside. -/
theorem HasOrigin.outside {fault cause : Fault} (origin : HasOrigin telling files decoder fault)
    (untold : telling.words fault = .error cause) : Outside telling files decoder fault := by
  rcases origin with isOwn | outside
  · rw [telling.own fault isOwn] at untold
    cases untold
  · exact outside

/-- To tell some fault from outside ends in a fault. -/
def ComesOfTelling (telling : Telling) (files : FileSystem (StateM σ))
    (decoder : Decoder (StateM σ) ρ) (cause : Fault) : Prop :=
  ∃ fault, Outside telling files decoder fault ∧ telling.words fault = .error cause

/-- An outcome is a value, or a fault of some kind. -/
def FailsOnlyBy {α : Type} (may : Fault → Prop) : Except Fault α → Prop
  | .ok _ => True
  | .error fault => may fault

theorem failsOnlyBy_iff {α : Type} {may : Fault → Prop} {outcome : Except Fault α} :
    FailsOnlyBy may outcome ↔ ∀ fault, outcome = .error fault → may fault := by
  cases outcome <;> simp [FailsOnlyBy]

variable (telling files decoder)

/-- Whether there is something at a path is kept back by a fault from outside only. -/
theorem holds_outside (path : String) :
    Always (files.holds path) (FailsOnlyBy (Outside telling files decoder)) :=
  fun _ => failsOnlyBy_iff.2 fun _ => .holds

/-- What is at a path is kept back by a fault from outside only. -/
theorem readText_outside (path : String) :
    Always (files.readText path) (FailsOnlyBy (Outside telling files decoder)) :=
  fun _ => failsOnlyBy_iff.2 fun _ => .readText

/-- A position is kept back by a fault from outside only. -/
theorem locate_outside (map : ρ) (line : Int) (column : Option Int) :
    Always (decoder.locate map line column) (FailsOnlyBy (Outside telling files decoder)) :=
  fun _ => failsOnlyBy_iff.2 fun _ => .locate

/-- A load fails of itself, or by what the files answer. -/
theorem MapCache.load_hasOrigin (path : String) :
    Always (load files decoder path) (FailsOnlyBy (HasOrigin telling files decoder)) := by
  have own {cause : LoadFault} (isOwn : (Fault.load cause).isOwn = true) :
      FailsOnlyBy (HasOrigin telling files decoder) (.error (.load cause) : Except Fault ρ) :=
    .inl isOwn
  unfold load
  split
  · exact .pure (own rfl)
  · refine .bind (holds_outside telling files decoder path) ?_
    rintro (fault | _ | _) outside
    · exact .pure (.inr outside)
    · exact .pure (own rfl)
    · refine .bind (readText_outside telling files decoder path) ?_
      rintro (fault | text) outside
      · cases fault with
        | undecodable reason => exact .pure (own rfl)
        | access kind reason => exact .pure (own rfl)
        | _ => exact .pure (.inr outside)
      · unfold decodeLoaded
        dsimp only
        split
        · exact .pure (own rfl)
        · refine .bind (.trivial _) ?_
          rintro (fault | map) -
          · exact .pure (own rfl)
          · exact .pure True.intro

/-- A request to the cache fails as a load does. -/
theorem MapCache.fetch_hasOrigin (cache : MapCache ρ) (path : String) :
    Always (cache.fetch files decoder path) fun answer =>
      FailsOnlyBy (HasOrigin telling files decoder) answer.1 := by
  unfold fetch
  cases cache.find? path with
  | some map => exact .pure True.intro
  | none =>
    refine .bind (load_hasOrigin telling files decoder path) ?_
    rintro (fault | map) origin
    · exact .pure origin
    · exact .pure True.intro

end Retrace
