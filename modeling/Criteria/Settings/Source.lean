import Criteria.Settings.Key
import Criteria.Toml.Document

/-!
# Sources of settings

Settings are written in TOML files, and in environment variables whose names begin alike and have
two underscores between the names of a path.

## Main definitions

* `Environment`, `Environment.get?`: the variables.
* `Folder`, `Folder.get?`, `Folder.document?`: the files, and the texts of documents in them.
* `Settings.ofToml?`: the assignments of a TOML text.
* `Settings.ofEnvironment`: the assignments of environment variables.
-/

namespace Criteria

/-- Environment variables by name; the last of several with one name counts. -/
abbrev Environment : Type := List (String × String)

/-- The text of a variable. -/
def Environment.get? (environment : Environment) (name : String) : Option String :=
  environment.reverse.lookup name

/-- The texts of files by name; the last of several with one name counts. -/
abbrev Folder : Type := List (String × String)

/-- The parts of the name of a file that lead somewhere. -/
def fileParts (name : String) : List (List Char) :=
  (Text.cutAt '/' name.toList).filter fun part => part ≠ [] && part ≠ ['.']

/-- The text of a file. A name that begins with a slash leads out of the folder. -/
def Folder.get? (folder : Folder) (name : String) : Option String :=
  if name.toList.head? = some '/' then none
  else (folder.reverse.find? fun (other, _) => fileParts other = fileParts name).map (·.2)

/-- The ending of the names of documents. -/
def documentEnding : String := ".toml"

/-- A name has an ending: a point in its last part, and not at the front of that. -/
def hasEnding (name : String) : Bool :=
  (((Text.cutAt '/' name.toList).getLast?.getD []).drop 1).contains '.'

/-- The text of the document of a name. It is in the file of that name, which must have an ending;
if there is no such file, in that of the name with the ending of documents behind it. -/
def Folder.document? (folder : Folder) (name : String) : Option String :=
  match folder.get? name with
  | some text => if hasEnding name then some text else none
  | none => folder.get? (name ++ documentEnding)

namespace Settings

/-- The value of a scalar; that of a moment is its text. -/
def ofScalar : Toml.Scalar → Value
  | .text s => .text s
  | .integer n => .integer n
  | .real x => .real x
  | .flag b => .flag b
  | .moment m => .text m.render

/-- The step that a part of a path of a document is. -/
def ofPart : Toml.Part → Step
  | .name name => .name name
  | .item place => .item place

/-- The path of settings that a path of a document stands for; its first name is a key. -/
def pathOfDocument : Toml.Path → Path
  | .name first :: rest => Path.ofKey first ++ rest.map ofPart
  | path => path.map ofPart

/-- The assignment that a path of a document with its content is. -/
def ofContent : Toml.Path × Toml.Content → Assignment
  | (path, .table) => .branch (pathOfDocument path)
  | (path, .array) => .row (pathOfDocument path)
  | (path, .scalar value) => .value (pathOfDocument path) (ofScalar value)

/-- The assignments of a TOML text; none if it is no document. -/
def ofToml? (s : String) : Option (List Assignment) := (Toml.document? s).map (·.map ofContent)

/-- The assignments of a file with a TOML text, which may begin with a mark of byte order of its
own. -/
def ofFile? (s : String) : Option (List Assignment) :=
  ofToml? (String.ofList (Toml.unmarked s.toList))

/-- The beginning of the names of variables for settings, in small letters. -/
def variableStart : String := "eligibility_"

/-- A name with a point in place of every two underscores. -/
def pointed : List Char → List Char
  | '_' :: '_' :: s => '.' :: pointed s
  | c :: s => c :: pointed s
  | [] => []

/-- The path of settings that the name of a variable stands for; large letters count as small. -/
def pathOfVariable? (name : String) : Option Path :=
  let chars := Value.lowered name
  if variableStart.toList.isPrefixOf chars then
    some (Path.ofKey (String.ofList (pointed (chars.drop variableStart.length))))
  else none

/-- The assignments of environment variables. -/
def ofEnvironment (environment : Environment) : List Assignment :=
  environment.filterMap fun (name, text) =>
    (pathOfVariable? name).map fun path => .value path (.ofVariable text)

end Settings

end Criteria
