import WalletSession.Text.Blank
import WalletSession.Text.Split

/-! Paths of files. The text of a path is kept as it was written; what it means is its steps. Empty
names and single dots mean nothing between slashes, but a dot at the end insists on a directory, and
so does a slash. -/
namespace WalletSession

structure FilePath where
  text : String
  deriving DecidableEq, Repr, Inhabited

namespace FilePath

def isNoStep (piece : List Char) : Bool := piece == [] || piece == ['.']

def pieces (p : FilePath) : List (List Char) := Text.splitAt (· == '/') p.text.toList

/-- The names on the way, with two dots for the way up, and a dot if the path ends in one. -/
def steps (p : FilePath) : List String :=
  let names := p.pieces.filter (!isNoStep ·)
  let ending := p.pieces.reverse.find? (· != [])
  (if ending = some ['.'] then names ++ [['.']] else names).map String.ofList

def endsInSlash (p : FilePath) : Bool := p.text.toList.getLast? == some '/'

/-- A file of a directory. -/
def join (directory : FilePath) (name : String) : FilePath :=
  if directory.text.isEmpty || directory.endsInSlash then ⟨directory.text ++ name⟩
  else ⟨directory.text ++ "/" ++ name⟩

/-- Without its last step, and without what means nothing before it. -/
def parent (p : FilePath) : FilePath :=
  let above := ((p.pieces.reverse.dropWhile isNoStep).drop 1).dropWhile isNoStep
  ⟨"/".intercalate (above.reverse.map String.ofList)⟩

/-- A path has less than 4096 bytes. -/
def isShort (p : FilePath) : Bool := p.text.utf8ByteSize < 4096

/-- No path holds the character that ends texts. -/
def isClean (p : FilePath) : Bool := !p.text.toList.contains '\x00'

end FilePath

end WalletSession
