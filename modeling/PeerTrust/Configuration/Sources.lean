/-
  `Configuration.Sources` — settings from files and from callers.

  There are two files: one of the user and one of the project, which is looked
  for in the working directory. A file that is not there counts as empty. The
  project's file wins over the user's, and both over the defaults. A caller may
  pass a document or checked settings instead; then no file is read.
-/
import PeerTrust.Configuration.Layers
import PeerTrust.Configuration.Validation
import PeerTrust.FileSystem
import PeerTrust.Yaml.Document

namespace PeerTrust

namespace Layers

/-- The name of a file with settings. -/
def fileName : String := ".servertrust-config.yaml"

/-- The text of a content in UTF-8. -/
def textOf (content : Content) : Except Failure String :=
  match (Content.octets? content).bind Text.ofUtf8? with
  | some text => .ok text
  | none => .error .octetsNotText

/-- **The layer in a file.** A path without a file gives an empty layer, unless the
path is too long to ask about. -/
def ofFile (files : FileSystem) (path : String) : Except Failure Value :=
  if Path.isImpossible path || !Path.isEncodable path then .ok (.dict [])
  else
    match files.read (Path.ofText path) with
    | .error .nameTooLong => .error (.system .nameTooLong)
    | .error _ => .ok (.dict [])
    | .ok content => do return orEmpty (← Yaml.read (← textOf content))

/-- The layer in the file that a caller names. -/
def ofFileArgument (files : FileSystem) : Value → Except Failure Value
  | .str path | .path path => ofFile files path
  | _ => .error .misuse

/-- The path of the user's file. -/
def userPath (env : Environment) : String := env.userDirectory ++ "/" ++ fileName

/-- **A layer on top of the user's file and the defaults.** -/
def onUserFile (env : Environment) (copies : Value → Bool) (custom : Value) :
    Except Failure Value := do
  combine copies (← ofFile env.files (userPath env)) custom

/-- **All layers:** the project's file, the user's file and the defaults. There are no live objects
in files. -/
def ofFiles (env : Environment) : Except Failure Value := do
  onUserFile env (fun _ => false) (← ofFile env.files fileName)

end Layers

/-- **The settings that a caller asks for:** those of the files, of a document, or
checked ones. -/
def Configuration.ofArgument (env : Environment) : Value → Except Failure Configuration
  | .null => do ofDocument (← Layers.ofFiles env)
  | .dict entries => ofDocument (.dict entries)
  | .configuration c => .ok c
  | v => .error (.wrongClass v .settings)

end PeerTrust
