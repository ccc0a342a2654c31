import ManagementPlane.Config.Basic
import ManagementPlane.Files.Tree

/-!
# Log files

`LoggingConfig.start` opens the log file of a service on a node: a file for each day in the log directory,
called after the node unless the configuration says otherwise. Directories that are missing are created.
-/

namespace ManagementPlane

/-- Why there is no log. -/
inductive LoggingError where
  | noDirectory (path : String)
  | noFile (path : String)
  deriving DecidableEq, Repr

def LoggingError.message : LoggingError → String
  | noDirectory path => "unable to create log directory " ++ path
  | noFile path => "unable to open log file " ++ path

namespace LoggingConfig

/-- The log file of a service on a node for a day. -/
def file (c : LoggingConfig) (service node day : String) : String :=
  Path.join c.directory (c.filePrefix.getD node ++ "-" ++ service ++ ".log." ++ day)

/-- Open the log file; if that fails, once more when the directories above it are there. -/
def openFile (files : FileTree) (path : String) : Except LoggingError Unit × FileTree :=
  let p := Path.ofString path
  match files.openToAppend p with
  | .ok files => (.ok (), files)
  | .error _ =>
    let files := (files.makeDirectories p.parent).2
    match files.openToAppend p with
    | .ok files => (.ok (), files)
    | .error _ => (.error (.noFile path), files)

/-- Create the log directory and open the log file. -/
def start (c : LoggingConfig) (service node day : String) (files : FileTree) :
    Except LoggingError Unit × FileTree :=
  match files.makeDirectories (.ofString c.directory) with
  | (.error _, files) => (.error (.noDirectory c.directory), files)
  | (.ok (), files) => openFile files (c.file service node day)

end LoggingConfig

end ManagementPlane
