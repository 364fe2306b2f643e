import RouteProgramming.FileTree
import RouteProgramming.Codec

/-!
Files given as JSON: pairs of a path and a content, which is a text, bytes in hexadecimal, or null for
a folder.
-/

namespace RouteProgramming.Wire

open Codec

def hexBytes : List Char → List UInt8
  | a :: b :: cs => UInt8.ofNat ((Text.Hexadecimal.digits? [a, b]).getD 0) :: hexBytes cs
  | _ => []

/-- The text of a file, if its bytes are one. -/
def readContent : Json → Option String
  | .str s => some s
  | j => String.fromUTF8? ⟨(hexBytes (((j.field? "hex").bind decode?).getD "").toList).toArray⟩

/-- Puts one file into a tree; what is no pair of a path and a content is passed over. -/
def readFile (t : FileTree) : Json → FileTree
  | .arr [.str path, .null] => FileTree.put .empty (FileTree.steps path) t
  | .arr [.str path, content] => FileTree.put (.file (readContent content)) (FileTree.steps path) t
  | _ => t

def readFiles (files : List Json) : FileTree := files.foldl readFile .empty

end RouteProgramming.Wire
