import RouteProgramming.CommandLine
import Std.Time.DateTime.Timestamp

/-!
The program: it reads the files that the command line names and carries out the command.
-/

namespace RouteProgramming

/-- What is on the disk at a path. Of a folder the content is read only if it is wanted. -/
partial def readTree (withContent : Bool) (path : String) : IO (Option FileTree) := do
  try
    let found ← IO.FS.realPath path
    if ← found.isDir then
      if !withContent then return some .empty
      let entries ← (← found.readDir).toList.filterMapM fun entry => do
        let tree ← readTree true entry.path.toString
        return tree.map (entry.fileName, ·)
      return some (.folder (entries.foldr (fun e es => FileTree.putEntry e.1 e.2 es) []))
    else return some (.file (String.fromUTF8? (← IO.FS.readBinFile path)))
  catch
    | .noFileOrDirectory _ 2 _ => return none
    | _ => return some (.file none)

def now : IO Timestamp := do
  let nanoseconds := (← Std.Time.Timestamp.now).toNanosecondsSinceUnixEpoch.val
  return ⟨nanoseconds / 1000000000, (nanoseconds % 1000000000).toNat⟩

/-- The files that a command reads, by path. -/
def readFiles : Option Command → IO (List (String × FileTree))
  | some (.run a) => do
    let config := (← readTree false a.configPath).map (a.configPath, ·)
    let profiles ← a.profileFolder.bindM fun folder => do
      return (← readTree true folder).map (folder, ·)
    return profiles.toList ++ config.toList
  | _ => return []

end RouteProgramming

open RouteProgramming in
def main (words : List String) : IO UInt32 := do
  let command := Command.parse words
  let files ← readFiles command
  let (code, printed) := Command.execute (files.lookup ·) (← now) command
  IO.print printed.text
  return code
