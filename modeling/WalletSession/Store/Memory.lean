import WalletSession.Store.Basic

/-! A store that lives as long as the process and holds the text of the record. -/
namespace WalletSession

structure MemoryStore where
  raw : Option String := none
  deriving DecidableEq, Repr, Inhabited

namespace MemoryStore

/-- A text that is no record is dropped. -/
def load (s : MemoryStore) : SessionToken × MemoryStore :=
  match s.raw with
  | none => ({}, s)
  | some raw =>
    match SessionToken.ofRecord? raw with
    | some t => (t, s)
    | none => ({}, ⟨none⟩)

def save (_ : MemoryStore) (t : SessionToken) : Except AuthError Unit × MemoryStore :=
  (.ok (), ⟨some (Wire.encode t)⟩)

def clear (_ : MemoryStore) : Except AuthError Unit × MemoryStore := (.ok (), ⟨none⟩)

instance : TokenStore MemoryStore := ⟨load, save, clear⟩

end MemoryStore

end WalletSession
