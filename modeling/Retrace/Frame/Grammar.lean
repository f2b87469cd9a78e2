import Retrace.Pattern.Basic

/-!
# Grammars of stack lines

Every family of script engines writes the lines of a stack in its own form. A grammar is the pattern
of one form. Names of methods, schemes and keywords are matched without regard to case.

Inside evaluated code a file reference describes where the code came from, and two further patterns
find the real file in it.
-/

namespace Retrace

open Pattern

/-- The forms of stack lines. -/
inductive Grammar where
  | chrome
  | winjs
  | gecko
  | node
  | jsc
  deriving DecidableEq, Repr

namespace Grammar

/-- All forms, in the order in which a line is tried against them. -/
def all : List Grammar :=
  [.chrome, .winjs, .gecko, .node, .jsc]

/-- A colon and a number, which is captured. -/
def numberPart (part : Part) : Pattern :=
  Pattern.all [char ':', capture part digits]

/-- What ends a line: blanks. -/
def lineEnd : Pattern :=
  Pattern.all [blanks, atEnd]

/-- The keyword that begins a call site. -/
def atKeyword : Pattern :=
  Pattern.all [atStart, blanks, word "at "]

/-- The scheme of a page or script, with or without encryption. -/
def httpScheme : Pattern :=
  Pattern.all [word "http", optional (word "s")]

/-- The way in which a file reference may begin in the first form: a scheme, a place without one,
an absolute path, a drive or a network share. -/
def chromeFileStart : Pattern :=
  anyOf (Pattern.all [char '\\', char '\\'])
    [word "file", httpScheme, word "blob", word "chrome-extension", word "native", word "eval",
     word "webpack", word "rsc", word "<anonymous>", char '/',
     Pattern.all [one Text.isLetter, char ':', char '\\']]

/-- A call site with the file in parentheses behind the method:
`at method (https://host/file.js:1:2)`. -/
def chromePattern : Pattern :=
  Pattern.all
    [atKeyword, capture .method anything, optional (char ' '), char '(',
     capture .file (Pattern.all [chromeFileStart, anything]),
     optional (numberPart .line), optional (numberPart .column), optional (char ')'), lineEnd]

/-- A file and both numbers in parentheses, inside a reference to evaluated code. -/
def chromeOriginPattern : Pattern :=
  Pattern.all
    [char '(', capture .file (greedy fun char => !Text.isBlank char), numberPart .line,
     numberPart .column, char ')']

/-- The mark of a call on an object without a name of its own. -/
def objectMark : Pattern :=
  optional (word "[object object]")

/-- A call site whose file has a scheme and at least a line, in parentheses or not:
`at method (https://host/file.js:1:2)`. -/
def winjsPattern : Pattern :=
  Pattern.all
    [atKeyword,
     optional (Pattern.all
       [capture .method (Pattern.all [objectMark, greedyOne isInLine]), char ' ']),
     optional (char '('),
     capture .file (Pattern.all
       [anyOf (word "blob")
          [word "file", word "ms-appx", httpScheme, word "webpack", word "rsc"],
        char ':', anything]),
     numberPart .line, optional (numberPart .column), optional (char ')'), lineEnd]

/-- The way in which a file reference may begin in the third form. -/
def geckoFileStart : Pattern :=
  anyOf (word "[native")
    [word "file", httpScheme, word "blob", word "chrome", word "webpack", word "rsc",
     word "resource"]

/-- A method and a file with an at sign between them: `method@https://host/file.js:1:2`. The file
begins with a scheme or ends in `bundle`; a file alone stands at the very front. -/
def geckoPattern : Pattern :=
  Pattern.all
    [atStart, blanks, capture .method anything,
     optional (Pattern.all [char '(', capture .arguments anything, char ')']),
     either atStart (char '@'),
     capture .file (either (Pattern.all [geckoFileStart, anything])
       (Pattern.all [greedy (· ≠ '@'), word "bundle"])),
     optional (numberPart .line), optional (numberPart .column), lineEnd]

/-- A file and the line of the outermost evaluation in it: `file line 1 > eval line 2 > eval`. -/
def geckoOriginPattern : Pattern :=
  Pattern.all
    [capture .file (greedyOne fun char => !Text.isBlank char), word " line ",
     capture .line digits, many (Pattern.all [word " > eval line ", digits]), word " > eval"]

/-- A call site whose file has no particular form but at least a line:
`at method (file.js:1:2)`. The method has no path in it. -/
def nodePattern : Pattern :=
  Pattern.all
    [atKeyword,
     optional (Pattern.all
       [capture .method (Pattern.all
          [objectMark, greedyOne fun char => char ≠ '\\' && char ≠ '/',
           optional (Pattern.all
             [word " [as ", greedyOne fun char => !Text.isBlank char, char ']'])]),
        char ' ']),
     optional (char '('), capture .file anything, numberPart .line,
     optional (numberPart .column), optional (char ')'), lineEnd]

/-- A file and at least a line, behind an optional method and an at sign: `method@file.js:1:2`. -/
def jscPattern : Pattern :=
  Pattern.all
    [atStart, blanks,
     optional (Pattern.all
       [capture .method (greedy (· ≠ '@')),
        optional (Pattern.all [char '(', capture .arguments anything, char ')']), char '@']),
     capture .file (Pattern.all [one fun char => !Text.isBlank char, anything]),
     numberPart .line, optional (numberPart .column), lineEnd]

/-- The pattern of a form. -/
def pattern : Grammar → Pattern
  | .chrome => chromePattern
  | .winjs => winjsPattern
  | .gecko => geckoPattern
  | .node => nodePattern
  | .jsc => jscPattern

end Grammar

end Retrace
