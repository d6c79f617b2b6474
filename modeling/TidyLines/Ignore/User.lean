import TidyLines.FileTree
import TidyLines.Ignore.Rules

/-!
# The ignore file of the user

The configuration of the version control system may name an ignore file for all repositories of a
user; otherwise the file stands at a fixed place in the directory for configurations.
-/

namespace TidyLines.Ignore

/-! ## A setting in a configuration file

Such a file is looked at byte by byte.  Only the value of the setting has to be a text. -/

/-- Whether a byte separates words in a configuration file. -/
def isSpace (byte : UInt8) : Bool := byte == 32 || (9 ≤ byte && byte ≤ 13)

def lineFeed : UInt8 := 10

def quote : UInt8 := 34

def equalsSign : UInt8 := 61

/-- The small letter of a letter. -/
def toLower (byte : UInt8) : UInt8 := if 65 ≤ byte && byte ≤ 90 then byte + 32 else byte

/-- Whether blanks at the start of the rest reach the end of a line. -/
def reachesLineEnd (rest : List UInt8) : Bool :=
  (rest.takeWhile isSpace).contains lineFeed || (rest.dropWhile isSpace).isEmpty

/-- Whether the value of a setting may end here: before blanks and perhaps a quote at the end of
the line. -/
def mayEnd (rest : List UInt8) : Bool :=
  reachesLineEnd rest ||
    match rest.dropWhile isSpace with
    | [] => false
    | byte :: after => byte == quote && reachesLineEnd after

/-- The shortest word from which a setting may end; the word so far is reversed. -/
def shortestValue? (reversed : List UInt8) : List UInt8 → Option (List UInt8)
  | [] => none
  | byte :: rest =>
    if isSpace byte then none
    else if mayEnd rest then some (byte :: reversed).reverse
    else shortestValue? (byte :: reversed) rest

/-- The value of a setting after its sign of equality.  A quote before it does not belong to it, if
a value is left. -/
def settingValue? (rest : List UInt8) : Option (List UInt8) :=
  match rest.dropWhile isSpace with
  | [] => none
  | byte :: after =>
    let quoted := if byte == quote then shortestValue? [] (after.dropWhile isSpace) else none
    quoted.or (shortestValue? [] (byte :: after))

/-- The name of the setting. -/
def settingName : List UInt8 := "excludesfile".toUTF8.data.toList

/-- The value of the setting at the start of the rest, if it stands there. -/
def settingAt? (rest : List UInt8) : Option (List UInt8) :=
  let rest := rest.dropWhile isSpace
  if (rest.take settingName.length).map toLower = settingName then
    match (rest.drop settingName.length).dropWhile isSpace with
    | [] => none
    | byte :: after => if byte == equalsSign then settingValue? after else none
  else none

/-- The value of the first setting at the start of a line. -/
def setting? (atStart : Bool) : List UInt8 → Option (List UInt8)
  | [] => none
  | byte :: rest =>
    (if atStart then settingAt? (byte :: rest) else none).or (setting? (byte == lineFeed) rest)

/-! ## The file that is named -/

/-- The value of a variable that is set to more than nothing. -/
def setVariable (environment : List (String × String)) (name : String) : Option String :=
  match environment.lookup name with
  | some "" => none
  | value => value

/-- A text in which every tilde stands for the home directory, if there is one. -/
def expandTilde (home : Option String) (text : Text) : Text :=
  match home with
  | none => text
  | some home =>
    text.flatMap fun character => if character = '~' then home.toList else [character]

/-- The directory for configurations. -/
def configDirectory? (environment : List (String × String)) (home : Option String) :
    Option Path :=
  match setVariable environment "XDG_CONFIG_HOME" with
  | some directory => some (.ofString directory)
  | none => home.map fun home => (Path.ofString home).join (.ofString ".config")

/-- The configuration files that may name the ignore file, the first choice first. -/
def configFiles (environment : List (String × String)) (home : Option String) : List Path :=
  (home.map fun home => (Path.ofString home).join (.ofString ".gitconfig")).toList ++
    ((configDirectory? environment home).map fun path => path.join (.ofString "git/config")).toList

/-- The path of the ignore file that a configuration file names. -/
def namedFile? (tree : FileTree) (directory : Address) (home : Option String) (path : Path) :
    Option Path := do
  let bytes ← (tree.read directory path).toOption
  let value ← setting? true bytes.data.toList
  let text ← Text.decode? ⟨value.toArray⟩
  return .ofString (String.ofList (expandTilde home text))

/-- The path of the ignore file of the user. -/
def userFile? (tree : FileTree) (directory : Address) (environment : List (String × String))
    (home : Option String) : Option Path :=
  ((configFiles environment home).findSome? (namedFile? tree directory home)).or
    ((configDirectory? environment home).map fun path => path.join (.ofString "git/ignore"))

/-- The rules in the ignore file of the user, the last one first. -/
def userRules (tree : FileTree) (directory : Address) (environment : List (String × String))
    (home : Option String) : List Rule :=
  match userFile? tree directory environment home with
  | none => []
  | some path =>
    match tree.read directory path with
    | .ok bytes => (Rules.ofBytes bytes).reversed
    | .error _ => []

end TidyLines.Ignore
