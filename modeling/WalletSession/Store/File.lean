import WalletSession.Store.Basic
import WalletSession.Store.FileTree

/-! A store that keeps the text of the record in a file of its own. -/
namespace WalletSession

structure FileStore where
  tree : FileTree
  path : FilePath
  deriving Inhabited

namespace FileStore

/-- The record's file in a directory. -/
def inDirectory (tree : FileTree) (directory : FilePath) : FileStore :=
  ⟨tree, directory.join (SessionToken.storageKey ++ ".json")⟩

def fault (e : FileFault) : AuthError := .storage e.message

/-- A file that is not there is already removed. -/
def clear (s : FileStore) : Except AuthError Unit × FileStore :=
  match s.tree.removeFile s.path with
  | .ok tree => (.ok (), { s with tree })
  | .error .notFound => (.ok (), s)
  | .error e => (.error (fault e), s)

/-- A text that is no record is removed, and a file that holds no text is left alone. -/
def load (s : FileStore) : SessionToken × FileStore :=
  match s.tree.read s.path with
  | .error _ => ({}, s)
  | .ok bytes =>
    match String.fromUTF8? bytes with
    | none => ({}, s)
    | some raw =>
      match SessionToken.ofRecord? raw with
      | some t => (t, s)
      | none => ({}, s.clear.2)

/-- Makes the directory first if it is missing. -/
def save (s : FileStore) (t : SessionToken) : Except AuthError Unit × FileStore :=
  match s.tree.makeDirectories s.path.parent with
  | (.error e, tree) => (.error (fault e), { s with tree })
  | (.ok (), tree) =>
    match tree.write s.path (Wire.encode t).toUTF8 with
    | .error e => (.error (fault e), { s with tree })
    | .ok tree => (.ok (), { s with tree })

instance : TokenStore FileStore := ⟨load, save, clear⟩

end FileStore

end WalletSession
