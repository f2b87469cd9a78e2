import Mathlib.Data.Finset.Card
import Retrace.Proofs.Storage.Exchanges

/-!
# Runs of a cache

A cache lives through a run. Source maps are asked for, it is asked which of them are there, and
between any two of these uses the outside may become whatever it likes: a file may be written, emptied
or taken away, or every question about it may fail from then on. `Run` relates what has happened so
far to the cache and the outside that it led to, and `Explained` is what every run keeps: what is in
the cache, and what an event was answered, follow from the events in front alone.

Source maps are told apart by equality in a type of which nothing is known. A decoder may number what
it decodes, so that equal source maps are the same one.
-/

namespace Retrace.MapCache

variable {σ ρ : Type}

/-- Something that happened to a cache or around it. -/
inductive Event (ρ : Type) where
  /-- The source map of a path was asked for, which took some exchanges with the outside. -/
  | got (path : String) (outcome : Except Fault ρ) (exchanges : List Exchange)
  /-- It was asked whether the source map of a path is there. -/
  | told (path : String) (known : Bool)
  /-- The outside changed. -/
  | changed

/-- The events lead from an empty cache to a cache and a state of the outside. -/
inductive Run (files : FileSystem (StateM σ)) (decoder : Decoder (StateM σ) ρ) :
    List (Event ρ) → MapCache ρ → σ → Prop where
  | start (outside : σ) : Run files decoder [] empty outside
  | get {events : List (Event ρ)} {cache after : MapCache ρ} {outside next : σ} {path : String}
      {outcome : Except Fault ρ} {exchanges : List Exchange}
      (prior : Run files decoder events cache outside)
      (fetched : (cache.fetch files.recorded decoder.recorded path).run ⟨outside, []⟩ =
        ((outcome, after), ⟨next, exchanges⟩)) :
      Run files decoder (events ++ [.got path outcome exchanges]) after next
  | contains {events : List (Event ρ)} {cache : MapCache ρ} {outside : σ}
      (prior : Run files decoder events cache outside) (path : String) :
      Run files decoder (events ++ [.told path (cache.contains path)]) cache outside
  | change {events : List (Event ρ)} {cache : MapCache ρ} {outside : σ}
      (prior : Run files decoder events cache outside) (next : σ) :
      Run files decoder (events ++ [.changed]) cache next

/-- Any path can be asked for next. -/
theorem Run.request {files : FileSystem (StateM σ)} {decoder : Decoder (StateM σ) ρ}
    {events : List (Event ρ)} {cache : MapCache ρ} {outside : σ}
    (prior : Run files decoder events cache outside) (path : String) :
    let answer := (cache.fetch files.recorded decoder.recorded path).run ⟨outside, []⟩
    Run files decoder (events ++ [.got path answer.1.1 answer.2.exchanges]) answer.1.2
      answer.2.outside :=
  prior.get rfl

/-- The source map of a path that an event brought. -/
def Event.brought? (path : String) : Event ρ → Option ρ
  | .got other (.ok map) _ => if other = path then some map else none
  | _ => none

/-- The source map of a path that the first event with one brought. -/
def firstBrought? (events : List (Event ρ)) (path : String) : Option ρ :=
  events.findSome? (Event.brought? path)

/-- The path of which an event brought the source map. -/
def Event.path? : Event ρ → Option String
  | .got path (.ok _) _ => some path
  | _ => none

/-- A path without a name is refused without a question, and every other one is asked for first. -/
structure Consults (path : String) (outcome : Except Fault ρ) (exchanges : List Exchange) : Prop where
  unnamed : path = "" → outcome = .error (.load .noName) ∧ exchanges = []
  named : path ≠ "" → ∃ answer rest, exchanges = .holds path answer :: rest

/-- What was answered to an event follows from the events in front of it. -/
def Event.Follows (earlier : List (Event ρ)) : Event ρ → Prop
  | .got path outcome exchanges =>
    match firstBrought? earlier path with
    | some map => outcome = .ok map ∧ exchanges = []
    | none => Consults path outcome exchanges
  | .told path known => known = (firstBrought? earlier path).isSome
  | .changed => True

theorem Event.brought?_eq_some {path : String} {event : Event ρ} {map : ρ} :
    event.brought? path = some map ↔ ∃ exchanges, event = .got path (.ok map) exchanges := by
  unfold brought?
  split
  next other found exchanges =>
    constructor
    · intro brought
      split at brought
      next same =>
        cases brought
        exact ⟨exchanges, by rw [same]⟩
      next => cases brought
    · rintro ⟨_, ⟨⟩⟩
      exact if_pos rfl
  next event other =>
    refine iff_of_false (by simp) ?_
    rintro ⟨exchanges, rfl⟩
    exact other path map exchanges rfl

/-- A source map was brought for a path exactly if some event brought one. -/
theorem firstBrought?_isSome {events : List (Event ρ)} {path : String} :
    (firstBrought? events path).isSome = true ↔
      ∃ map exchanges, Event.got path (.ok map) exchanges ∈ events := by
  rw [firstBrought?, List.isSome_findSome?, List.any_eq_true]
  constructor
  · rintro ⟨event, isIn, some⟩
    obtain ⟨map, brought⟩ := Option.isSome_iff_exists.1 some
    obtain ⟨exchanges, rfl⟩ := Event.brought?_eq_some.1 brought
    exact ⟨map, exchanges, isIn⟩
  · rintro ⟨map, exchanges, isIn⟩
    exact ⟨_, isIn, Option.isSome_iff_exists.2 ⟨map, Event.brought?_eq_some.2 ⟨exchanges, rfl⟩⟩⟩

theorem Event.mem_filterMap_path? {events : List (Event ρ)} {path : String} :
    path ∈ events.filterMap Event.path? ↔
      ∃ map exchanges, Event.got path (.ok map) exchanges ∈ events := by
  rw [List.mem_filterMap]
  constructor
  · rintro ⟨event, isIn, brings⟩
    match event, brings with
    | .got _ (.ok map) exchanges, rfl => exact ⟨map, exchanges, isIn⟩
  · rintro ⟨map, exchanges, isIn⟩
    exact ⟨_, isIn, rfl⟩

/-- Behind one more event, a path has its earlier source map, or else the one of the event. -/
theorem firstBrought?_concat (events : List (Event ρ)) (event : Event ρ) (path : String) :
    firstBrought? (events ++ [event]) path =
      (firstBrought? events path).or (event.brought? path) := by
  simp [firstBrought?, List.findSome?_append]

/-- The source map of a path stays what it was first, whatever happens. -/
theorem firstBrought?_append {events : List (Event ρ)} {path : String} {map : ρ}
    (brought : firstBrought? events path = some map) (more : List (Event ρ)) :
    firstBrought? (events ++ more) path = some map := by
  rw [firstBrought?, List.findSome?_append, ← firstBrought?, brought, Option.some_or]

section Requests

variable {files : FileSystem (StateM σ)} {decoder : Decoder (StateM σ) ρ} {cache after : MapCache ρ}
  {outside next : σ} {path : String} {outcome : Except Fault ρ} {exchanges : List Exchange}

/-- A load of a path without a name is refused at once, and every other load asks first whether there
is something at its path. -/
theorem load_consults (loaded : (load files.recorded decoder.recorded path).run ⟨outside, []⟩ =
    (outcome, ⟨next, exchanges⟩)) : Consults path outcome exchanges where
  unnamed := by
    rintro rfl
    cases loaded
    exact ⟨rfl, rfl⟩
  named := by
    intro named
    have asked := load_exchanges files decoder path ⟨outside, []⟩
    rw [loaded] at asked
    obtain ⟨rest, first⟩ := attempt_of_named named
      ((files.holds path).run outside).1
      ((files.readText path).run ((files.holds path).run outside).2).1
    exact ⟨_, rest, asked.trans first⟩

/-- A request gives the source map that is there and asks nobody, or it is a load. What a load brings
is kept, and a load that fails leaves the cache as it was. -/
theorem fetch_cases (fetched : (cache.fetch files.recorded decoder.recorded path).run ⟨outside, []⟩ =
    ((outcome, after), ⟨next, exchanges⟩)) :
    (∃ map, cache.find? path = some map ∧ outcome = .ok map ∧ after = cache ∧ exchanges = []) ∨
    (∃ fault, cache.find? path = none ∧ Consults path outcome exchanges ∧ outcome = .error fault ∧
      after = cache) ∨
    ∃ map, cache.find? path = none ∧ Consults path outcome exchanges ∧ outcome = .ok map ∧
      after = cache.insert path map := by
  unfold fetch at fetched
  cases known : cache.find? path with
  | some map =>
    rw [known] at fetched
    cases fetched
    exact .inl ⟨map, rfl, rfl, rfl, rfl⟩
  | none =>
    rw [known, run_bind] at fetched
    obtain ⟨result, rest, loaded⟩ : ∃ result rest,
        (load files.recorded decoder.recorded path).run ⟨outside, []⟩ = (result, rest) :=
      ⟨_, _, rfl⟩
    rw [loaded] at fetched
    cases result with
    | error fault =>
      cases fetched
      exact .inr (.inl ⟨fault, rfl, load_consults loaded, rfl, rfl⟩)
    | ok map =>
      cases fetched
      exact .inr (.inr ⟨map, rfl, load_consults loaded, rfl, rfl⟩)

end Requests

/-- A source map is there for exactly the listed paths. -/
theorem contains_iff_mem {cache : MapCache ρ} {path : String} :
    cache.contains path = true ↔ path ∈ cache.loaded.map Prod.fst := by
  simp [contains, find?]

/-- The events so far explain the cache, and every event follows from those in front of it. -/
structure Explained (events : List (Event ρ)) (cache : MapCache ρ) : Prop where
  found : ∀ path, cache.find? path = firstBrought? events path
  distinct : (cache.loaded.map Prod.fst).Nodup
  unnamed : firstBrought? events "" = none
  follows : EachBehind Event.Follows events

namespace Explained

variable {events : List (Event ρ)} {cache : MapCache ρ} {event : Event ρ}

theorem start : Explained ([] : List (Event ρ)) empty where
  found := fun _ => rfl
  distinct := List.nodup_nil
  unnamed := rfl
  follows := .nil

/-- An event that brings nothing new leaves the cache explained. -/
theorem keep (explained : Explained events cache) (follows : event.Follows events)
    (known : ∀ path map, event.brought? path = some map → firstBrought? events path = some map) :
    Explained (events ++ [event]) cache := by
  have same (path : String) : firstBrought? (events ++ [event]) path = firstBrought? events path := by
    rw [firstBrought?_concat]
    cases brought : event.brought? path with
    | none => exact Option.or_none
    | some map => rw [known path map brought, Option.some_or]
  exact {
    found := fun path => (explained.found path).trans (same path).symm
    distinct := explained.distinct
    unnamed := (same "").trans explained.unnamed
    follows := EachBehind.concat_iff.2 ⟨explained.follows, follows⟩ }

/-- A source map that was loaded for a path without one explains its place in the cache. -/
theorem insert (explained : Explained events cache) {path : String} {map : ρ}
    {exchanges : List Exchange} (missing : cache.find? path = none) (named : path ≠ "")
    (follows : (Event.got path (.ok map) exchanges).Follows events) :
    Explained (events ++ [.got path (.ok map) exchanges]) (cache.insert path map) where
  found := by
    intro other
    rw [firstBrought?_concat, find?_insert, ← explained.found, Event.brought?]
    split
    next same => rw [← same, missing, Option.none_or]
    next => rw [Option.or_none]
  distinct := by
    refine List.nodup_cons.2 ⟨?_, explained.distinct⟩
    rw [← contains_iff_mem, contains, missing]
    exact Bool.false_ne_true
  unnamed := by
    rw [firstBrought?_concat, explained.unnamed, Event.brought?, if_neg named]
    rfl
  follows := EachBehind.concat_iff.2 ⟨explained.follows, follows⟩

end Explained

/-- A request for a source map that is not there brings one behind which it stays the same. -/
theorem Event.Follows.brought {earlier : List (Event ρ)} {path : String} {map : ρ}
    {exchanges : List Exchange} (follows : (Event.got path (.ok map) exchanges).Follows earlier) :
    firstBrought? (earlier ++ [.got path (.ok map) exchanges]) path = some map := by
  rw [firstBrought?_concat]
  cases known : firstBrought? earlier path with
  | none => simp [brought?]
  | some first =>
    rw [Follows, known] at follows
    cases follows.1
    rfl

/-- A request that fails is for a source map that is not there. -/
theorem Event.Follows.missing {earlier : List (Event ρ)} {path : String} {fault : Fault}
    {exchanges : List Exchange}
    (follows : (Event.got path (.error fault) exchanges).Follows earlier) :
    firstBrought? earlier path = none := by
  cases known : firstBrought? earlier path with
  | none => rfl
  | some first =>
    rw [Follows, known] at follows
    cases follows.1

/-- Every run explains the cache that it leads to. -/
theorem Run.explained {files : FileSystem (StateM σ)} {decoder : Decoder (StateM σ) ρ}
    {events : List (Event ρ)} {cache : MapCache ρ} {outside : σ}
    (run : Run files decoder events cache outside) : Explained events cache := by
  induction run with
  | start outside => exact .start
  | @get events cache after _ _ path _ exchanges _ fetched explained =>
    have found := explained.found path
    obtain ⟨map, known, rfl, rfl, rfl⟩ | ⟨fault, missing, consults, rfl, rfl⟩ |
      ⟨map, missing, consults, rfl, rfl⟩ := fetch_cases fetched
    · have brought : firstBrought? events path = some map := found.symm.trans known
      refine explained.keep (by simp [Event.Follows, brought]) ?_
      intro other again isBrought
      obtain ⟨_, ⟨⟩⟩ := Event.brought?_eq_some.1 isBrought
      exact brought
    · refine explained.keep (by simpa [Event.Follows, ← found, missing] using consults) ?_
      intro other again isBrought
      cases isBrought
    · refine explained.insert missing ?_ (by simpa [Event.Follows, ← found, missing] using consults)
      intro unnamed
      cases (consults.unnamed unnamed).1
  | contains prior path explained =>
    refine explained.keep ?_ (fun _ _ isBrought => by cases isBrought)
    rw [Event.Follows, MapCache.contains, explained.found]
  | change prior next explained =>
    exact explained.keep trivial (fun _ _ isBrought => by cases isBrought)

namespace Explained

variable {events : List (Event ρ)} {cache : MapCache ρ}

/-- The source maps that are there are those of the paths for which a request brought one. -/
theorem contains_iff (explained : Explained events cache) (path : String) :
    cache.contains path = true ↔ ∃ map exchanges, Event.got path (.ok map) exchanges ∈ events := by
  rw [contains, explained.found, firstBrought?_isSome]

/-- Every path for which a request brought a source map counts once. -/
theorem size_eq (explained : Explained events cache) :
    cache.size = (events.filterMap Event.path?).toFinset.card := by
  have same : (cache.loaded.map Prod.fst).toFinset = (events.filterMap Event.path?).toFinset := by
    ext path
    rw [List.mem_toFinset, List.mem_toFinset, ← contains_iff_mem, explained.contains_iff,
      Event.mem_filterMap_path?]
  rw [← same, List.toFinset_card_of_nodup explained.distinct, List.length_map, size]

end Explained

/-- What is there, what is answered and what is asked at any point of a cache's life. -/
structure Memoizes (files : FileSystem (StateM σ)) (decoder : Decoder (StateM σ) ρ)
    (events : List (Event ρ)) (cache : MapCache ρ) (outside : σ) : Prop where
  /-- Exactly the paths are in the cache for which a request has brought a source map. -/
  contains_iff : ∀ path, cache.contains path = true ↔
    ∃ map exchanges, Event.got path (.ok map) exchanges ∈ events
  /-- The size is the number of these paths. -/
  size_eq : cache.size = (events.filterMap Event.path?).toFinset.card
  /-- Whoever asked for a path was told whether a request had brought its source map by then. -/
  told_iff : ∀ front path known behind, events = front ++ .told path known :: behind →
    (known = true ↔ ∃ map exchanges, Event.got path (.ok map) exchanges ∈ front)
  /-- Behind the first source map of a path, every request gives the same one and asks nobody. -/
  same : ∀ front path map exchanges between outcome more behind,
    events = front ++ .got path (.ok map) exchanges :: (between ++ .got path outcome more :: behind) →
    outcome = .ok map ∧ more = []
  /-- A request that fails now, for whatever reason, leaves the cache as it is. -/
  failed : ∀ path fault after next exchanges,
    (cache.fetch files.recorded decoder.recorded path).run ⟨outside, []⟩ =
      ((.error fault, after), ⟨next, exchanges⟩) → after = cache
  /-- The next request for a path with a name behind one that failed begins with a question. -/
  afresh : ∀ front path fault exchanges between outcome more behind, path ≠ "" →
    events =
      front ++ .got path (.error fault) exchanges :: (between ++ .got path outcome more :: behind) →
    (∀ other outcome exchanges, .got other outcome exchanges ∈ between → other ≠ path) →
    ∃ answer rest, more = .holds path answer :: rest
  /-- The path without a name is always refused, and nobody is asked. -/
  unnamed : ∀ outcome exchanges, .got "" outcome exchanges ∈ events →
    outcome = .error (.load .noName) ∧ exchanges = []

/-- In every run of a cache, whatever becomes of the outside between its uses, a source map that was
once brought stays, a failure leaves nothing behind, and nobody is asked for what is known. -/
theorem memoizes_of_run {files : FileSystem (StateM σ)} {decoder : Decoder (StateM σ) ρ}
    {events : List (Event ρ)} {cache : MapCache ρ} {outside : σ}
    (run : Run files decoder events cache outside) :
    Memoizes files decoder events cache outside where
  contains_iff := run.explained.contains_iff
  size_eq := run.explained.size_eq
  told_iff := by
    intro front path known behind split
    have follows := run.explained.follows _ _ _ split
    rw [Event.Follows] at follows
    rw [follows, firstBrought?_isSome]
  same := by
    intro front path map exchanges between outcome more behind split
    have first := (run.explained.follows _ _ _ split).brought
    have known := firstBrought?_append first between
    have second := run.explained.follows (front ++ [.got path (.ok map) exchanges] ++ between)
      (.got path outcome more) behind (by simpa using split)
    rw [Event.Follows, known] at second
    exact second
  failed := by
    intro path fault after next exchanges fetched
    obtain ⟨map, -, ⟨⟩, -⟩ | ⟨fault, -, -, -, same⟩ | ⟨map, -, -, ⟨⟩, -⟩ := fetch_cases fetched
    exact same
  afresh := by
    intro front path fault exchanges between outcome more behind named split others
    have before := (run.explained.follows _ _ _ split).missing
    have missing : firstBrought? (front ++ .got path (.error fault) exchanges :: between) path
        = none := by
      rw [← Option.not_isSome_iff_eq_none, firstBrought?_isSome]
      rintro ⟨map, brought, isIn⟩
      rcases List.mem_append.1 isIn with isInFront | isInRest
      · rw [← Option.not_isSome_iff_eq_none, firstBrought?_isSome] at before
        exact before ⟨map, brought, isInFront⟩
      · cases isInRest with
        | tail _ isBetween => exact others path _ _ isBetween rfl
    have follows := run.explained.follows (front ++ .got path (.error fault) exchanges :: between)
      (.got path outcome more) behind (by simpa using split)
    rw [Event.Follows, missing] at follows
    exact follows.named named
  unnamed := by
    intro outcome exchanges isIn
    obtain ⟨front, behind, split⟩ := List.append_of_mem isIn
    have follows := run.explained.follows _ _ _ split
    cases known : firstBrought? front "" with
    | some map =>
      have nothing := run.explained.unnamed
      rw [split, firstBrought?_append known] at nothing
      cases nothing
    | none =>
      rw [Event.Follows, known] at follows
      exact follows.unnamed rfl

/-- A place for one file that may be taken away and put back, and the number of texts that were
decoded so far. -/
structure Shelf where
  full : Bool
  decoded : Nat

/-- The file on the shelf is a source map. -/
def shelfFiles : FileSystem (StateM Shelf) where
  holds path := fun shelf => (.ok (shelf.full && path == "a.js.map"), shelf)
  isDirectory _ := pure (.ok false)
  readText path := fun shelf =>
    (if shelf.full && path == "a.js.map" then .ok "map" else .error (.runtime "taken away"), shelf)
  listDirectory _ := pure (.ok [])

/-- A decoder that numbers what it decodes. -/
def numbering : Decoder (StateM Shelf) Nat where
  decode _ := fun shelf => (.ok shelf.decoded, { shelf with decoded := shelf.decoded + 1 })
  locate _ _ _ := pure (.ok none)

/-- What happens to a source map that is not there first, is loaded, and is asked for again when its
file is gone. -/
def shelfEvents : List (Event Nat) :=
  [.got "a.js.map" (.error (.load (.absent "a.js.map"))) [.holds "a.js.map" (.ok false)],
   .changed,
   .got "a.js.map" (.ok 4)
    [.holds "a.js.map" (.ok true), .readText "a.js.map" (.ok "map"), .decode "map"],
   .changed,
   .got "a.js.map" (.ok 4) [],
   .told "a.js.map" true]

/-- A source map that outlives its file is remembered as it was loaded. -/
theorem memoizes_of_run_of_shelfEvents :
    Run shelfFiles numbering shelfEvents ⟨[("a.js.map", 4)]⟩ ⟨false, 9⟩ ∧
      Memoizes shelfFiles numbering shelfEvents ⟨[("a.js.map", 4)]⟩ ⟨false, 9⟩ := by
  have start : Run shelfFiles numbering [] empty ⟨false, 4⟩ := .start _
  have loaded := ((start.request "a.js.map").change ⟨true, 4⟩).request "a.js.map"
  have run : Run shelfFiles numbering shelfEvents ⟨[("a.js.map", 4)]⟩ ⟨false, 9⟩ :=
    ((loaded.change ⟨false, 9⟩).request "a.js.map").contains "a.js.map"
  exact ⟨run, memoizes_of_run run⟩

end Retrace.MapCache
