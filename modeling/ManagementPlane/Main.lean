import ManagementPlane.Program.Run
import Std.Time.DateTime

/-!
# The program

Takes a picture of the files that a run can come to read, lets `Program.run` decide what is to be done, and
carries that out.
-/

namespace ManagementPlane.Program

def today : IO String := do
  let date := Std.Time.PlainDate.ofEpochDay (← Std.Time.Timestamp.now).toDaysSinceUnixEpoch
  let padded (n : Int) : String := if n < 10 then "0" ++ toString n else toString n
  return toString (date.year : Int) ++ "-" ++ padded date.month.val ++ "-" ++ padded date.day.val

def contentsOf (path : String) : IO FileContents := do
  try return .bytes (← IO.FS.readBinFile path).toList
  catch _ => return .refused .accessDenied

def withOther (files : FileTree) (path : String) : FileTree :=
  match files.locate (.ofString path) with
  | .ok l => files.put l .other
  | .error _ => files

/-- Add what a path leads to: a file, or a directory with all that is in it. Links to files in a directory
are followed only if `links` says so. What cannot be found is left out. -/
partial def withPath (links : Bool) (files : FileTree) (path : String) : IO FileTree := do
  try
    let real ← IO.FS.realPath path
    match (← real.metadata).type with
    | .dir =>
      let files := (files.makeDirectories (.ofString path)).2
      let entry (files : FileTree) (e : IO.FS.DirEntry) : IO FileTree := do
        let path := Path.join path e.fileName
        let followed := links || (← e.path.isDir) || (← e.path.symlinkMetadata).type != .symlink
        if followed then withPath links files path else return withOther files path
      (← real.readDir).foldlM entry files
    | .file => return files.storeContents path (← contentsOf path)
    | _ => return withOther files path
  catch _ => return files

def configuredPaths (c : AppConfig) : List String := c.logging.directory :: c.catalog.defaultSource.toList

def surroundings (arguments : List String) : IO Surroundings := do
  let configFile ← IO.getEnv "TRELLIS_CONFIG"
  let start ← IO.monoMsNow
  let files := FileTree.rootedAt (← IO.currentDir).toString
  let day ← today
  match Invocation.parse arguments with
  | .run options _ =>
    let files ← (configFile.toList ++ candidates options).foldlM (withPath true) files
    let files ← match AppConfig.load files configFile (candidates options) with
      | .ok (_, c) =>
        let c := options.override c
        withPath false (← (configuredPaths c).foldlM (withPath true) files) c.persistence.directory
      | .error _ => pure files
    return { configFile, files, day, elapsed := (← IO.monoMsNow) - start }
  | _ => return { configFile, files, day }

end ManagementPlane.Program

open ManagementPlane in
/-- Runs the program and carries out what it decides. -/
def main (arguments : List String) : IO UInt32 := do
  let given ← Program.surroundings arguments
  let ending := Program.run arguments given
  for (directory, path, contents) in given.files.filesBeyond ending.files do
    IO.FS.createDirAll directory
    IO.FS.writeBinFile path ⟨contents.toArray⟩
  for text in ending.output do IO.println text
  for text in ending.errors do IO.eprintln text
  return ending.status.toUInt32
