/-!
# Error reports

An error with the errors behind it, as it is shown to the user. Each error behind the first has a
line of its own, with a number if there are several; further lines of its text are indented alike.
-/
namespace TagTemplate

structure Report where
  outermost : String
  /-- The errors behind it, the outer ones first. -/
  causes : List String
  deriving DecidableEq, Repr

namespace Report

def context (report : Report) (outer : String) : Report :=
  ⟨outer, report.outermost :: report.causes⟩

/-- A text after a margin, and every further line of it after blanks of the same width. -/
def indented (margin text : List Char) : List Char :=
  margin ++ text.flatMap fun c =>
    if c = '\n' then c :: List.replicate margin.length ' ' else [c]

/-- The number of a cause, set to the right of five columns. -/
def numberMargin (n : Nat) : List Char :=
  let digits := Nat.toDigits 10 n
  List.replicate (5 - digits.length) ' ' ++ digits ++ [':', ' ']

/-- The margin of the cause at an index. -/
def margin (several : Bool) (index : Nat) : List Char :=
  if several then numberMargin index else List.replicate 4 ' '

def causeLines (several : Bool) : Nat → List String → List Char
  | _, [] => []
  | index, cause :: causes =>
    indented (margin several index) cause.toList ++ '\n' :: causeLines several (index + 1) causes

def text (report : Report) : String :=
  let head := "Error: " ++ report.outermost ++ "\n"
  if report.causes.isEmpty then head
  else
    head ++ "\nCaused by:\n" ++
      String.ofList (causeLines (report.causes.length > 1) 0 report.causes)

end Report
end TagTemplate
