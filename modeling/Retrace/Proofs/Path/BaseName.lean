import Mathlib.Data.List.TakeWhile
import Retrace.Path.BaseName
import Retrace.Proofs.Text.Cuts

/-!
# The last names of a path

A name behind a slash is the last name of a path that only slashes separate. Where backslashes
separate names too, and drives and shares come off the front, what is left as the last name is
always an end of that one.
-/

namespace Retrace

/-- What stands behind the last separator has no separator itself. -/
theorem Text.separates_of_mem_afterLast {separates : Char → Bool} {text : List Char} :
    ∀ char ∈ Text.afterLast separates text, separates char = false := by
  intro char isIn
  rw [Text.afterLast, List.mem_reverse] at isIn
  simpa using List.all_eq_true.1 List.all_takeWhile char isIn

/-- A text without separators behind a separator is what stands behind the last one. -/
theorem Text.afterLast_append {separates : Char → Bool} {separator : Char} {front back : List Char}
    (isSeparator : separates separator = true) (clean : ∀ char ∈ back, separates char = false) :
    Text.afterLast separates (front ++ separator :: back) = back := by
  have kept : ∀ char ∈ back.reverse, (!separates char) = true := by
    intro char isIn
    rw [clean char (List.mem_reverse.1 isIn)]
    rfl
  rw [Text.afterLast, List.reverse_append, List.reverse_cons, List.append_assoc,
    List.takeWhile_append_of_pos kept]
  simp [isSeparator]

/-- A text without separators is all there is behind the last one. -/
theorem Text.afterLast_eq_self {separates : Char → Bool} {text : List Char}
    (clean : ∀ char ∈ text, separates char = false) : Text.afterLast separates text = text := by
  rw [Text.afterLast, List.takeWhile_eq_self_iff.2, List.reverse_reverse]
  intro char isIn
  rw [clean char (List.mem_reverse.1 isIn)]
  rfl

/-- What stands behind the last separator ends the text. -/
theorem Text.afterLast_suffix (separates : Char → Bool) (text : List Char) :
    Text.afterLast separates text <:+ text := by
  rw [Text.afterLast, ← List.reverse_prefix, List.reverse_reverse]
  exact List.takeWhile_prefix _

/-- An end of a text without separators stands behind the last one. -/
theorem Text.suffix_afterLast {separates : Char → Bool} {ending text : List Char}
    (ends : ending <:+ text) (clean : ∀ char ∈ ending, separates char = false) :
    ending <:+ Text.afterLast separates text := by
  obtain ⟨front, rfl⟩ := ends
  have kept : ∀ char ∈ ending.reverse, (!separates char) = true := by
    intro char isIn
    rw [clean char (List.mem_reverse.1 isIn)]
    rfl
  rw [Text.afterLast, List.reverse_append, List.takeWhile_append_of_pos kept, List.reverse_append,
    List.reverse_reverse]
  exact List.suffix_append _ _

namespace Path

/-- The path ends in a name behind a slash, and does not begin as a network share does. -/
structure EndsIn (path name : List Char) : Prop where
  ends : ∃ front, path = front ++ '/' :: name
  named : name ≠ []
  undivided : ∀ char ∈ name, isWindowsSeparator char = false
  noShare : ∀ first second rest, path = first :: second :: rest →
    (isWindowsSeparator first && isWindowsSeparator second) = false

variable {path name : List Char}

theorem posixName_of_endsIn (endsIn : EndsIn path name) : posixName path = name := by
  obtain ⟨front, rfl⟩ := endsIn.ends
  refine Text.afterLast_append (by decide) fun char isIn => ?_
  have noSeparator := endsIn.undivided char isIn
  rw [isWindowsSeparator, Bool.or_eq_false_iff] at noSeparator
  exact noSeparator.1

/-- A path that begins neither as a network share nor with a drive is a path as it stands. -/
theorem afterDrive_cons {first second : Char} (rest : List Char)
    (noShare : (isWindowsSeparator first && isWindowsSeparator second) = false) :
    afterDrive (first :: second :: rest) =
      if second = ':' then rest else first :: second :: rest := by
  rw [afterDrive, noShare]
  rfl

/-- What remains behind a name ends the path. -/
theorem getD_afterName?_suffix (path : List Char) : (afterName? path).getD [] <:+ path := by
  rw [afterName?]
  split
  next => exact List.nil_suffix
  next separator rest cut =>
    rw [Option.getD_some, ← cut]
    exact List.dropWhile_suffix _

theorem afterName?_suffix {path rest : List Char} (found : afterName? path = some rest) :
    rest <:+ path := by
  have ends := getD_afterName?_suffix path
  rw [found] at ends
  exact ends

/-- What follows a share ends the path. -/
theorem afterShare_suffix (path : List Char) : afterShare path <:+ path := by
  rw [afterShare]
  split
  next => exact List.nil_suffix
  next => exact List.nil_suffix
  next separator share found =>
    have behindHost := (List.suffix_cons separator share).trans (afterName?_suffix found)
    exact (getD_afterName?_suffix share).trans behindHost

/-- What follows a drive or a share ends the path. -/
theorem afterDrive_suffix (path : List Char) : afterDrive path <:+ path := by
  unfold afterDrive
  split
  next first second rest =>
    have behindTwo : rest <:+ first :: second :: rest :=
      (List.suffix_cons _ _).trans (List.suffix_cons _ _)
    split
    next =>
      split
      next => exact (afterShare_suffix _).trans (List.drop_suffix _ _)
      next => exact (afterShare_suffix _).trans behindTwo
    next =>
      split
      next => exact behindTwo
      next => exact List.suffix_rfl
  next => exact List.suffix_rfl

/-- The last name under the convention with backslashes has no slash. -/
theorem not_mem_windowsName (path : List Char) : '/' ∉ windowsName path := by
  intro isIn
  have noSeparator := Text.separates_of_mem_afterLast '/' isIn
  revert noSeparator
  decide

/-- The last name under the convention with backslashes ends the last name under the other one,
whatever drive or share is dropped in front of it: it ends the path and has no slash. -/
theorem windowsName_suffix_posixName (path : List Char) : windowsName path <:+ posixName path := by
  have ends : windowsName path <:+ path :=
    (Text.afterLast_suffix _ _).trans (afterDrive_suffix path)
  refine Text.suffix_afterLast ends fun char isIn => ?_
  refine decide_eq_false fun isSlash => ?_
  subst isSlash
  exact not_mem_windowsName path isIn

end Path

end Retrace
