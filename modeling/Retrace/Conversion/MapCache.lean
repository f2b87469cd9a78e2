import Retrace.Storage.Basic
import Retrace.SourceMap.Resolver

/-!
# Loading source maps once

A source map is loaded when it is first needed and kept from then on. A load that fails leaves
nothing behind, so the next request tries again.
-/

namespace Retrace

open SourceMap (Position Resolver)

/-- How the text of a source map becomes something that finds positions. Lines count from one. -/
structure Decoder (m : Type → Type) (ρ : Type) where
  /-- What the text of a source map says. -/
  decode : String → m (Except Fault ρ)
  /-- The source place of a generated line and column. -/
  locate : ρ → Int → Option Int → m (Except Fault (Option Position))

/-- Decodes source map documents. -/
def Decoder.sourceMap {m : Type → Type} [Monad m] : Decoder m Resolver where
  decode text := pure (Resolver.ofText text)
  locate resolver line column := pure (.ok (resolver.locate line column))

/-- The loaded source maps by path, the latest first. -/
structure MapCache (ρ : Type) where
  loaded : List (String × ρ)

namespace MapCache

/-- Nothing is loaded. -/
def empty {ρ : Type} : MapCache ρ := ⟨[]⟩

/-- The loaded source map of a path. -/
def find? {ρ : Type} (cache : MapCache ρ) (path : String) : Option ρ :=
  (cache.loaded.find? fun entry => entry.1 = path).map Prod.snd

/-- The source map of a path is loaded. -/
def contains {ρ : Type} (cache : MapCache ρ) (path : String) : Bool :=
  (cache.find? path).isSome

/-- The number of loaded source maps. -/
def size {ρ : Type} (cache : MapCache ρ) : Nat :=
  cache.loaded.length

/-- Keeps a source map that was not loaded before. -/
def insert {ρ : Type} (cache : MapCache ρ) (path : String) (map : ρ) : MapCache ρ :=
  ⟨(path, map) :: cache.loaded⟩

theorem find?_insert {ρ : Type} (cache : MapCache ρ) (path other : String) (map : ρ) :
    (cache.insert path map).find? other = if path = other then some map else cache.find? other := by
  by_cases same : path = other <;> simp [find?, insert, same]

/-- The fault of a load whose file could not be read. -/
def readFault (path : String) : Fault → Fault
  | .undecodable _ => .load .unparsable
  | .access _ _ => .load (.absent path)
  | fault => fault

/-- Decodes the text that was read from a path. -/
def decodeLoaded {m : Type → Type} [Monad m] {ρ : Type} (decoder : Decoder m ρ)
    (path text : String) : m (Except Fault ρ) := do
  if text.isEmpty then return .error (.load (.empty path))
  else
    match ← decoder.decode text with
    | .error _ => return .error (.load .unparsable)
    | .ok map => return .ok map

/-- Loads the source map of a path. -/
def load {m : Type → Type} [Monad m] {ρ : Type} (files : FileSystem m) (decoder : Decoder m ρ)
    (path : String) : m (Except Fault ρ) := do
  if path.isEmpty then return .error (.load .noName)
  else
    match ← files.holds path with
    | .error fault => return .error fault
    | .ok false => return .error (.load (.absent path))
    | .ok true =>
      match ← files.readText path with
      | .error fault => return .error (readFault path fault)
      | .ok text => decodeLoaded decoder path text

/-- The source map of a path, loaded if it is not yet. -/
def fetch {m : Type → Type} [Monad m] {ρ : Type} (files : FileSystem m) (decoder : Decoder m ρ)
    (cache : MapCache ρ) (path : String) : m (Except Fault ρ × MapCache ρ) := do
  match cache.find? path with
  | some map => return (.ok map, cache)
  | none =>
    match ← load files decoder path with
    | .error fault => return (.error fault, cache)
    | .ok map => return (.ok map, cache.insert path map)

end MapCache

end Retrace
