import StateGraph.FilePath

set_option autoImplicit false

/-!
# Stores of files

What is done with files depends only on reading a whole file and writing a whole
file, either of which can fail for a reason of the store's.
-/

namespace StateGraph

/-- The files that can be read: the bytes under each path, or the reason why there
are none. -/
abbrev FileReader : Type := FilePath → Except String Bytes

/-- Types whose elements hold files. -/
class FileStore (S : Type) where
  /-- the bytes of a file -/
  read : S → FileReader
  /-- the store after a file was written -/
  write : S → FilePath → Bytes → Except String S

end StateGraph
