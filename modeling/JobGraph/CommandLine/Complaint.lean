import JobGraph.Error
import JobGraph.Task.Failure

/-!
# Complaints

What the program says when it cannot go on: the outermost text of a failure, and below it the causes
on lines of their own, numbered if there are several.
-/

namespace JobGraph

def Error.causes : Error → List String
  | .file problem => [problem.message]
  | .spawn _ source => [source]
  | .jobText => ["the text is no job definition"]
  | .dataText => ["the text is no data"]
  | _ => []

def Error.failure (error : Error) : Failure := ⟨error.message, error.causes⟩

namespace Failure

/-- A text whose first line stands after a mark and whose other lines begin below its end. -/
def indented (mark text : String) : String :=
  let margin := "\n" ++ String.ofList (List.replicate mark.length ' ')
  mark ++ text.replace "\n" margin

/-- The mark of a numbered cause, its number flush right. -/
def causeMark (number : Nat) : String :=
  let digits := toString number
  String.ofList (List.replicate (5 - digits.length) ' ') ++ digits ++ ": "

def causeLines : List String → List String
  | [] => []
  | [cause] => [indented "    " cause]
  | causes => (List.range causes.length).zipWith (fun number => indented (causeMark number)) causes

/-- The text of a failure with its causes below it. -/
def complaint (failure : Failure) : String :=
  if failure.causes.isEmpty then failure.outermost
  else
    failure.outermost ++ "\n\nCaused by:\n"
      ++ String.intercalate "\n" (causeLines failure.causes)

end Failure

end JobGraph
