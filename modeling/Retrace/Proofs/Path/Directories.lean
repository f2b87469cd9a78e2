import Mathlib.Data.List.Infix
import Mathlib.Data.List.Sublists
import Retrace.Proofs.Path.BaseName

/-!
# Directories in front of a name

A name behind a directory is the last name of the path, whatever the directory is like, with two
exceptions under the convention with backslashes. A directory that is a network share as far as it
goes has the name taken for a part of the share, so that nothing is left of it; and a directory that
is a single separator has a colon behind it taken for a drive.
-/

namespace Retrace.Path

/-- A directory, up to its last separator, and a name in it. -/
structure LeadsTo (directory name : List Char) : Prop where
  ends : ∃ front separator, directory = front ++ [separator] ∧ isWindowsSeparator separator = true
  undivided : ∀ char ∈ name, isWindowsSeparator char = false

/-- What begins a network share: two separators, with or without what gives the share as a device. -/
def IsShareMark (mark : List Char) : Prop :=
  (mark.length = 2 ∧ mark.all isWindowsSeparator = true) ∨
    (mark.length = deviceShareMark.length ∧ isDeviceShare mark = true)

instance (mark : List Char) : Decidable (IsShareMark mark) :=
  inferInstanceAs (Decidable (_ ∨ _))

/-- The directory is a network share as far as it goes: at most a host stands behind the mark. -/
def IsOpenShare (directory : List Char) : Prop :=
  ∃ mark host, directory = mark ++ host ∧ IsShareMark mark ∧ host.countP isWindowsSeparator ≤ 1

instance (directory : List Char) : Decidable (IsOpenShare directory) :=
  decidable_of_iff
    (∃ mark ∈ directory.inits,
      IsShareMark mark ∧ (directory.drop mark.length).countP isWindowsSeparator ≤ 1)
    ⟨fun ⟨mark, isInit, isMark, few⟩ => ⟨mark, directory.drop mark.length,
      (List.prefix_iff_eq_append.1 ((List.mem_inits _ _).1 isInit)).symm, isMark, few⟩,
    fun ⟨mark, host, cut, isMark, few⟩ => ⟨mark, (List.mem_inits _ _).2 ⟨host, cut.symm⟩, isMark, by
      rwa [cut, List.drop_left]⟩⟩

/-- A name without a colon in front. -/
def withoutColon : List Char → List Char
  | ':' :: rest => rest
  | name => name

/-- What is left of a name behind a directory. -/
def nameBehind (directory name : List Char) : List Char :=
  if IsOpenShare directory then []
  else if directory.length = 1 then withoutColon name
  else name

/-- The directory leaves a name in it as it is. -/
def Keeps (directory name : List Char) : Prop :=
  ¬ IsOpenShare directory ∧ ¬ (directory.length = 1 ∧ name.head? = some ':')

variable {directory name : List Char}

/-- A name without a colon in front of it is not longer than the name. -/
theorem length_withoutColon_le (name : List Char) : (withoutColon name).length ≤ name.length := by
  unfold withoutColon
  split
  next => exact Nat.le_succ _
  next => exact Nat.le_refl _

/-- Nothing is added to a name behind a directory. -/
theorem length_nameBehind_le (directory name : List Char) :
    (nameBehind directory name).length ≤ name.length := by
  unfold nameBehind
  split
  next => exact Nat.zero_le _
  next =>
    split
    next => exact length_withoutColon_le name
    next => exact Nat.le_refl _

/-- A directory that keeps names leaves a name as it is. -/
theorem nameBehind_eq_self (keeps : Keeps directory name) : nameBehind directory name = name := by
  rw [nameBehind, if_neg keeps.1]
  split
  next single =>
    unfold withoutColon
    split
    next rest => exact absurd ⟨single, rfl⟩ keeps.2
    next => rfl
  next => rfl

/-- Any other directory takes something away from a name. -/
theorem length_nameBehind_lt (named : name ≠ []) (lost : ¬ Keeps directory name) :
    (nameBehind directory name).length < name.length := by
  rw [Keeps, not_and_or, not_not, not_not] at lost
  rw [nameBehind]
  split
  next => exact List.length_pos_iff.2 named
  next notOpen =>
    obtain ⟨single, colon⟩ := lost.resolve_left notOpen
    obtain ⟨rest, rfl⟩ : ∃ rest, name = ':' :: rest := List.head?_eq_some_iff.1 colon
    rw [if_pos single]
    exact Nat.lt_succ_self _

/-- What ends in a separator can be cut at its first one. -/
theorem exists_first_separator {text : List Char} (some : 0 < text.countP isWindowsSeparator) :
    ∃ front separator back, text = front ++ separator :: back ∧
      isWindowsSeparator separator = true ∧ ∀ char ∈ front, isWindowsSeparator char = false := by
  obtain ⟨separator, found⟩ : ∃ separator, text.find? isWindowsSeparator = Option.some separator := by
    rw [← Option.isSome_iff_exists, List.find?_isSome]
    exact List.countP_pos_iff.1 some
  obtain ⟨isSeparator, front, back, cut, clean⟩ := List.find?_eq_some_iff_append.1 found
  exact ⟨front, separator, back, cut, isSeparator, fun char isIn => by simpa using clean char isIn⟩

/-- Behind the first name of a path stands its first separator. -/
theorem afterName?_append {front back : List Char} {separator : Char}
    (clean : ∀ char ∈ front, isWindowsSeparator char = false)
    (isSeparator : isWindowsSeparator separator = true) :
    afterName? (front ++ separator :: back) = some (separator :: back) := by
  have kept : ∀ char ∈ front, (!isWindowsSeparator char) = true := by
    intro char isIn
    rw [clean char isIn]
    rfl
  rw [afterName?, List.dropWhile_append_of_pos kept]
  simp [isSeparator]

/-- Nothing stands behind the only name of a path. -/
theorem afterName?_eq_none (undivided : ∀ char ∈ name, isWindowsSeparator char = false) :
    afterName? name = none := by
  have dropped : name.dropWhile (!isWindowsSeparator ·) = [] := by
    rw [List.dropWhile_eq_nil_iff]
    intro char isIn
    rw [undivided char isIn]
    rfl
  rw [afterName?, dropped]

section Share

variable {host : List Char}

/-- Behind the mark of a share, nothing is left of a name if there is at most a host in front of it. -/
theorem afterShare_of_few (closed : ∀ char ∈ host.getLast?, isWindowsSeparator char = true)
    (undivided : ∀ char ∈ name, isWindowsSeparator char = false)
    (few : host.countP isWindowsSeparator ≤ 1) : afterShare (host ++ name) = [] := by
  rcases List.eq_nil_or_concat' host with rfl | ⟨front, last, rfl⟩
  · rw [List.nil_append, afterShare, afterName?_eq_none undivided]
  · have isSeparator : isWindowsSeparator last = true := closed last (by simp)
    rw [List.countP_append, List.countP_singleton, if_pos isSeparator] at few
    have none : front.countP isWindowsSeparator = 0 := by omega
    have clean : ∀ char ∈ front, isWindowsSeparator char = false := by
      simpa using List.countP_eq_zero.1 none
    rw [List.append_assoc, List.singleton_append, afterShare, afterName?_append clean isSeparator]
    simp [afterName?_eq_none undivided]

/-- Behind a whole share, a name stands behind a separator. -/
theorem afterShare_of_many (closed : ∀ char ∈ host.getLast?, isWindowsSeparator char = true)
    (many : 1 < host.countP isWindowsSeparator) :
    ∃ front separator, isWindowsSeparator separator = true ∧
      afterShare (host ++ name) = front ++ separator :: name := by
  obtain ⟨first, behindHost, share, rfl, isFirst, noneInHost⟩ :=
    exists_first_separator (show 0 < host.countP isWindowsSeparator by omega)
  have further : 0 < share.countP isWindowsSeparator := by
    have noneCounted : first.countP isWindowsSeparator = 0 :=
      List.countP_eq_zero.2 fun char isIn => by simp [noneInHost char isIn]
    rw [List.countP_append, noneCounted, List.countP_cons_of_pos isFirst] at many
    omega
  obtain ⟨shareName, behindShare, rest, rfl, isSecond, noneInShare⟩ := exists_first_separator further
  have left : afterShare ((first ++ behindHost :: (shareName ++ behindShare :: rest)) ++ name) =
      (behindShare :: rest) ++ name := by
    rw [List.append_assoc, List.cons_append, List.append_assoc, List.cons_append, afterShare,
      afterName?_append noneInHost isFirst]
    simp [afterName?_append noneInShare isSecond]
  obtain ⟨front, last, ends⟩ : ∃ front last, behindShare :: rest = front ++ [last] := by
    rcases List.eq_nil_or_concat' (behindShare :: rest) with empty | ends
    · cases empty
    · exact ends
  refine ⟨front, last, closed last ?_, ?_⟩
  · have whole : first ++ behindHost :: (shareName ++ behindShare :: rest) =
        (first ++ behindHost :: (shareName ++ front)) ++ [last] := by
      rw [ends]
      simp
    rw [whole, List.getLast?_concat]
    rfl
  · rw [left, ends, List.append_assoc]
    rfl

/-- What a device mark is compared by is a backslash for separators only. -/
theorem isWindowsSeparator_iff {char : Char} :
    isWindowsSeparator char = true ↔ (if char = '/' then '\\' else char.toUpper) = '\\' := by
  rw [isWindowsSeparator, Bool.or_eq_true, decide_eq_true_iff, decide_eq_true_iff]
  by_cases slash : char = '/'
  · simp [slash]
  · rw [if_neg slash, or_iff_right slash]
    constructor
    · rintro rfl
      decide
    · intro same
      unfold Char.toUpper at same
      split at same
      next lower =>
        have shifted := congrArg (fun char : Char => char.val.toNat) same
        have bounds : 97 ≤ char.toNat ∧ char.toNat ≤ 122 := lower
        simp at shifted
        omega
      next => exact same

/-- The mark of a share that is given as a device is compared without regard to case and to which
separators it has. -/
theorem normalized_of_isDeviceShare {mark : List Char} (length : mark.length = deviceShareMark.length)
    (isDevice : isDeviceShare mark = true) :
    (mark.map fun char => if char = '/' then '\\' else char.toUpper) = deviceShareMark := by
  have compared := of_decide_eq_true isDevice
  rwa [← length, List.take_length] at compared

/-- Whether a path begins as a share given as a device is decided by as much of it as the mark has. -/
theorem isDeviceShare_append {mark rest : List Char} (length : mark.length = deviceShareMark.length) :
    isDeviceShare (mark ++ rest) = isDeviceShare mark := by
  rw [isDeviceShare, isDeviceShare, ← length, List.take_left, List.take_length]

/-- The mark of a share that is given as a device has four separators, the first two and the last
among them. -/
theorem separators_of_isDeviceShare {mark : List Char} (length : mark.length = deviceShareMark.length)
    (isDevice : isDeviceShare mark = true) :
    mark.countP isWindowsSeparator = 4 ∧
      (∃ front last, mark = front ++ [last] ∧ isWindowsSeparator last = true) ∧
      ∃ first second rest, mark = first :: second :: rest ∧
        (isWindowsSeparator first && isWindowsSeparator second) = true := by
  have normalized := normalized_of_isDeviceShare length isDevice
  refine ⟨?_, ?_, ?_⟩
  · have counted : (deviceShareMark.countP fun char => char = '\\') = 4 := by decide
    rw [← normalized, List.countP_map] at counted
    rw [← counted]
    refine List.countP_congr fun char _ => ?_
    rw [isWindowsSeparator_iff, Function.comp_apply, decide_eq_true_iff]
  · have closed : deviceShareMark = "\\\\?\\UNC".toList ++ ['\\'] := by decide
    rw [closed] at normalized
    obtain ⟨front, _, rfl, -, isLast⟩ := List.map_eq_append_iff.1 normalized
    obtain ⟨last, rfl, isSeparator⟩ := List.map_eq_singleton_iff.1 isLast
    exact ⟨front, last, rfl, isWindowsSeparator_iff.2 isSeparator⟩
  · have opened : deviceShareMark = '\\' :: '\\' :: "?\\UNC\\".toList := by decide
    rw [opened] at normalized
    obtain ⟨first, _, rfl, isFirst, others⟩ := List.map_eq_cons_iff.1 normalized
    obtain ⟨second, rest, rfl, isSecond, -⟩ := List.map_eq_cons_iff.1 others
    refine ⟨first, second, rest, rfl, ?_⟩
    rw [isWindowsSeparator_iff.2 isFirst, isWindowsSeparator_iff.2 isSecond]
    rfl

end Share

/-- A share begins with two separators. -/
theorem IsShareMark.separators {mark : List Char} (isMark : IsShareMark mark) :
    ∃ first second rest, mark = first :: second :: rest ∧
      (isWindowsSeparator first && isWindowsSeparator second) = true := by
  rcases isMark with ⟨length, areSeparators⟩ | ⟨length, isDevice⟩
  · obtain ⟨first, second, rfl⟩ := List.length_eq_two.1 length
    exact ⟨first, second, [], rfl, by simpa using areSeparators⟩
  · exact (separators_of_isDeviceShare length isDevice).2.2

namespace LeadsTo

/-- Whatever is left of a directory ends in a separator too. -/
theorem closed (leads : LeadsTo directory name) {front host : List Char}
    (cut : directory = front ++ host) : ∀ char ∈ host.getLast?, isWindowsSeparator char = true := by
  intro char isLast
  obtain ⟨before, separator, rfl, isSeparator⟩ := leads.ends
  obtain ⟨start, rfl⟩ := List.getLast?_eq_some_iff.1 isLast
  rw [← List.append_assoc] at cut
  obtain ⟨-, same⟩ := List.append_inj' cut rfl
  obtain rfl := List.singleton_inj.1 same
  exact isSeparator

/-- The mark of a share that a path is given by as a device lies in the directory. -/
theorem exists_mark (leads : LeadsTo directory name)
    (isDevice : isDeviceShare (directory ++ name) = true) :
    ∃ mark host, directory = mark ++ host ∧ mark.length = deviceShareMark.length ∧
      isDeviceShare mark = true := by
  have cut := (List.take_append_drop deviceShareMark.length (directory ++ name)).symm
  have isMark : isDeviceShare ((directory ++ name).take deviceShareMark.length) = true := by
    rw [isDeviceShare] at isDevice ⊢
    rwa [List.take_take, Nat.min_self]
  have length : ((directory ++ name).take deviceShareMark.length).length =
      deviceShareMark.length := by
    have compared := congrArg List.length (of_decide_eq_true isDevice)
    rwa [List.length_map] at compared
  obtain ⟨-, ⟨front, last, closed, isSeparator⟩, -⟩ := separators_of_isDeviceShare length isMark
  generalize (directory ++ name).take deviceShareMark.length = mark at cut isMark length closed
  rcases List.append_eq_append_iff.1 cut with ⟨more, rfl, isName⟩ | ⟨host, rfl, -⟩
  · -- The mark ends in a separator, so it does not reach into the name.
    by_cases none : more = []
    · subst none
      rw [List.append_nil] at isMark length
      exact ⟨directory, [], by simp, length, isMark⟩
    · have isIn := Text.mem_of_append_singleton closed.symm none
      have inName := leads.undivided last (isName ▸ List.mem_append_left _ isIn)
      rw [isSeparator] at inName
      cases inName
  · exact ⟨mark, host, rfl, length, isMark⟩

/-- Nothing is left of a name behind a directory that is a share as far as it goes. -/
theorem afterDrive_of_isOpenShare (leads : LeadsTo directory name) (isOpen : IsOpenShare directory) :
    afterDrive (directory ++ name) = [] := by
  obtain ⟨mark, host, cut, isMark, few⟩ := isOpen
  have left : afterShare (host ++ name) = [] :=
    afterShare_of_few (leads.closed cut) leads.undivided few
  rcases isMark with ⟨length, areSeparators⟩ | ⟨length, isDevice⟩
  · obtain ⟨first, second, rfl⟩ := List.length_eq_two.1 length
    simp only [List.all_cons, List.all_nil, Bool.and_true] at areSeparators
    have noDevice : isDeviceShare (directory ++ name) = false := by
      rw [← Bool.not_eq_true]
      intro isDevice
      obtain ⟨mark, others, same, length, isMark⟩ := leads.exists_mark isDevice
      obtain ⟨four, -⟩ := separators_of_isDeviceShare length isMark
      have atLeast : 4 ≤ directory.countP isWindowsSeparator := by
        rw [same, List.countP_append, four]
        omega
      have atMost : directory.countP isWindowsSeparator ≤ 2 + host.countP isWindowsSeparator := by
        rw [cut, List.countP_append]
        exact Nat.add_le_add_right List.countP_le_length _
      omega
    rw [cut] at noDevice ⊢
    simp only [List.cons_append, List.nil_append] at noDevice ⊢
    rw [afterDrive, if_pos areSeparators, noDevice, if_neg Bool.false_ne_true, left]
  · obtain ⟨-, -, first, second, rest, rfl, areSeparators⟩ :=
      separators_of_isDeviceShare length isDevice
    have device : isDeviceShare (first :: second :: rest ++ (host ++ name)) = true := by
      rw [isDeviceShare_append length, isDevice]
    have dropped : (first :: second :: rest ++ (host ++ name)).drop deviceShareMark.length =
        host ++ name := List.drop_left' length
    rw [cut, List.append_assoc]
    simp only [List.cons_append] at device dropped ⊢
    rw [afterDrive, if_pos areSeparators, if_pos device, dropped, left]

/-- A name stays behind a separator if its directory is more than one and no share as far as it
goes. -/
theorem afterDrive_of_not_isOpenShare (leads : LeadsTo directory name)
    (notOpen : ¬ IsOpenShare directory) (longer : directory.length ≠ 1) :
    ∃ front separator, isWindowsSeparator separator = true ∧
      afterDrive (directory ++ name) = front ++ separator :: name := by
  have whole {mark host : List Char} (cut : directory = mark ++ host) (isMark : IsShareMark mark) :
      ∃ front separator, isWindowsSeparator separator = true ∧
        afterShare (host ++ name) = front ++ separator :: name := by
    refine afterShare_of_many (leads.closed cut) (Nat.lt_of_not_le fun few => notOpen ?_)
    exact ⟨mark, host, cut, isMark, few⟩
  have behind {front rest : List Char} (cut : directory = front ++ rest) (some : rest ≠ []) :
      ∃ front separator, isWindowsSeparator separator = true ∧
        rest ++ name = front ++ separator :: name := by
    rcases List.eq_nil_or_concat' rest with none | ⟨before, last, rfl⟩
    · exact absurd none some
    · exact ⟨before, last, leads.closed cut last (by simp), by simp⟩
  obtain ⟨first, second, rest, rfl⟩ : ∃ first second rest, directory = first :: second :: rest := by
    obtain ⟨front, separator, rfl, -⟩ := leads.ends
    rcases front with _ | ⟨first, _ | ⟨second, front⟩⟩
    · exact absurd rfl longer
    · exact ⟨first, separator, [], rfl⟩
    · exact ⟨first, second, front ++ [separator], rfl⟩
  simp only [List.cons_append]
  cases share : isWindowsSeparator first && isWindowsSeparator second with
  | true =>
    rw [afterDrive, if_pos share]
    cases device : isDeviceShare (first :: second :: (rest ++ name)) with
    | true =>
      obtain ⟨mark, host, cut, length, isMark⟩ := leads.exists_mark device
      have dropped : (first :: second :: (rest ++ name)).drop deviceShareMark.length =
          host ++ name := by
        rw [← List.cons_append, ← List.cons_append, cut, List.append_assoc]
        exact List.drop_left' length
      rw [if_pos rfl, dropped]
      exact whole cut (.inr ⟨length, isMark⟩)
    | false =>
      rw [if_neg Bool.false_ne_true]
      have cut : first :: second :: rest = [first, second] ++ rest := rfl
      exact whole cut (.inl ⟨rfl, by simpa using share⟩)
  | false =>
    rw [afterDrive_cons _ share]
    split
    next colon =>
      have cut : first :: second :: rest = [first, second] ++ rest := rfl
      refine behind cut ?_
      rintro rfl
      have last : [first, second] = [first] ++ [second] := rfl
      have isSeparator := leads.closed last second rfl
      rw [colon] at isSeparator
      exact absurd isSeparator (by decide)
    next =>
      have cut : first :: second :: rest = [] ++ first :: second :: rest := rfl
      exact behind cut (List.cons_ne_nil _ _)

/-- The last name of a path under the convention with backslashes is the name in the directory, but
for shares that are not complete and for a colon behind a single separator. -/
theorem windowsName_append (leads : LeadsTo directory name) :
    windowsName (directory ++ name) = nameBehind directory name := by
  rw [windowsName, nameBehind]
  split
  next isOpen =>
    rw [leads.afterDrive_of_isOpenShare isOpen]
    rfl
  next notOpen =>
    split
    next single =>
      obtain ⟨separator, rfl⟩ := List.length_eq_one_iff.1 single
      have last : [separator] = [] ++ [separator] := rfl
      have isSeparator := leads.closed last separator rfl
      have whole : Text.afterLast isWindowsSeparator ([] ++ separator :: name) = name :=
        Text.afterLast_append isSeparator leads.undivided
      rw [List.nil_append] at whole
      cases name with
      | nil => exact whole
      | cons first others =>
        obtain ⟨noSeparator, clean⟩ := List.forall_mem_cons.1 leads.undivided
        have noShare : (isWindowsSeparator separator && isWindowsSeparator first) = false := by
          rw [noSeparator, Bool.and_false]
        rw [List.singleton_append, afterDrive_cons others noShare]
        split
        next colon =>
          rw [Text.afterLast_eq_self clean, colon]
          rfl
        next noColon =>
          rw [whole, withoutColon]
          rintro rest same
          exact noColon (List.cons_eq_cons.1 same).1
    next longer =>
      obtain ⟨front, separator, isSeparator, left⟩ :=
        leads.afterDrive_of_not_isOpenShare notOpen longer
      rw [left, Text.afterLast_append isSeparator leads.undivided]

end LeadsTo

/-- Where a name behind a slash is not the last name, a colon in front of it is taken for a drive. -/
theorem windowsName_of_endsIn {path : List Char} (endsIn : EndsIn path name) :
    windowsName path = name ∨ (path = '/' :: name ∧ name = ':' :: windowsName path) := by
  obtain ⟨front, cut⟩ := endsIn.ends
  have joined : path = (front ++ ['/']) ++ name := by rw [cut]; simp
  have leads : LeadsTo (front ++ ['/']) name := ⟨⟨front, '/', rfl, by decide⟩, endsIn.undivided⟩
  have notOpen : ¬ IsOpenShare (front ++ ['/']) := by
    rintro ⟨mark, host, isMark, share, -⟩
    obtain ⟨first, second, rest, rfl, areSeparators⟩ := share.separators
    rw [isMark] at joined
    rw [endsIn.noShare first second _ joined] at areSeparators
    cases areSeparators
  have left := leads.windowsName_append
  rw [← joined, nameBehind, if_neg notOpen] at left
  split at left
  next single =>
    obtain rfl : front = [] := by simpa using single
    rw [withoutColon.eq_def] at left
    split at left
    next rest =>
      rw [left]
      exact .inr ⟨cut, rfl⟩
    next => exact .inl left
  next => exact .inl left

end Retrace.Path
