import TidyLines.Analyzer

/-!
# Why the program fails

A failure is reported with what was tried first and with its causes below.
-/

namespace TidyLines.CommandLine

/-- Why the program fails after its arguments were understood. -/
inductive Failure where
  | configuration (path : Path) (error : ConfigError)
  | ruleOptions (error : ConfigError)
  | analyzer (error : AnalysisError)
  | analysis (error : AnalysisError)
  | formatting (error : AnalysisError)
  | undecodableInput
  /-- There is a configuration file already. -/
  | configurationExists (path : Path)
  | unwritable (fault : Fault)
  deriving DecidableEq, Repr

namespace Failure

/-- The messages about a configuration, from what is wrong down to its cause. -/
def configCauses (error : ConfigError) : List String :=
  match error with
  | .unreadable _ reason => [error.message, reason]
  | _ => [error.message]

/-- What was tried. -/
def headline : Failure → String
  | configuration path _ => "Failed to load config: " ++ path.text
  | ruleOptions _ => "Invalid rule configuration"
  | analyzer _ => "Failed to build analyzer"
  | analysis _ => "Analysis failed"
  | formatting _ => "Format failed"
  | undecodableInput => "Failed to read stdin as UTF-8 text"
  | configurationExists path =>
    "Configuration file already exists at " ++ path.text ++ ". Use --force to overwrite."
  | unwritable fault => fault.message

/-- The causes, each one the cause of the one before it. -/
def causes : Failure → List String
  | configuration _ error => configCauses error
  | ruleOptions error => configCauses error
  | analyzer error => error.causes
  | analysis error => error.causes
  | formatting error => error.causes
  | undecodableInput => [Fault.notText.message]
  | configurationExists _ => []
  | unwritable _ => []

/-- A text behind a lead, with blanks of the same width before its other lines. -/
def hang (lead text : String) : String :=
  let blanks := "".pushn ' ' lead.length
  lead ++ ("\n" ++ blanks).intercalate (text.splitOn "\n")

/-- A cause with its number. -/
def numbered (cause : String × Nat) : String :=
  hang ("    " ++ toString cause.2 ++ ": ") cause.1

/-- The lines about the causes. -/
def causeLines : List String → List String
  | [] => []
  | [cause] => ["", "Caused by:", hang "    " cause]
  | causes => "" :: "Caused by:" :: causes.zipIdx.map numbered

/-- A failure with its causes. -/
def report (failure : Failure) : String :=
  "\n".intercalate (("Error: " ++ failure.headline) :: causeLines failure.causes)

end Failure
end TidyLines.CommandLine
