import SchedAudit.Batch

/-!
# Sessions

A session is one use of the command line: what it prints, and how it ends. Printing is kept as data,
so that the progress of a batch, which comes in the order in which runs happen to finish, can be
told from the rest.
-/

namespace SchedAudit.CommandLine

/-- Something printed. -/
inductive Output where
  /-- a text, and the end of its line -/
  | line (text : String)
  /-- the news that a run of a batch is over -/
  | progress (news : Progress)

/-- The run that is over, and its verdict. -/
def newsText (r : RunResult) : String := r.label ++ " ... " ++ r.status

/-- The line of a piece of news, with any text behind the counts. -/
def progressLine (news : Progress) (text : String) : String :=
  s!"  [{news.done}/{news.total}] {text}"

/-- The text of something printed, without the end of its last line. -/
def Output.text : Output → String
  | .line text => text
  | .progress news => progressLine news (newsText news.run)

/-- What makes a session end early. -/
inductive Fatal where
  | settings (error : SettingsError)
  /-- a file or a directory is not where it should be -/
  | notFound (what path : String)
  | platform (error : LoadError)
  | recording (path : String) (error : RunError)
  /-- the names in a directory cannot be had -/
  | unlistable (directory : String)
  /-- more workers than can be kept count of -/
  | tooManyWorkers
deriving Repr, DecidableEq

/-- The reason in words. -/
def Fatal.message : Fatal → String
  | .settings error => s!"Failed to load run configuration: {error.message}"
  | .notFound what path => s!"{what} not found: {path}"
  | .platform error => s!"Failed to load platform: {error.message}"
  | .recording path error => s!"Cannot check {path}: {error.message}"
  | .unlistable directory => s!"Cannot list {directory}"
  | .tooManyWorkers => "too many workers"

/-- How a session ends. -/
inductive Conclusion where
  /-- no violation was found -/
  | passed
  /-- a violation was found -/
  | failed
  /-- the arguments make no sense -/
  | misused
  /-- it ended early -/
  | stopped (fatal : Fatal)
deriving Repr, DecidableEq

/-- The conclusion on whether all is well. -/
def Conclusion.ofPassed (passed : Bool) : Conclusion := if passed then .passed else .failed

/-- The status that is returned to the caller. -/
def Conclusion.status : Conclusion → UInt32
  | .passed => 0
  | .failed => 1
  | .misused => 2
  | .stopped .tooManyWorkers => 101
  | .stopped _ => 1

/-- What is printed, and how it ends. -/
structure Session where
  /-- what is printed -/
  output : List Output
  /-- how it ends -/
  conclusion : Conclusion

end SchedAudit.CommandLine
