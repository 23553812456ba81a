import WalletSession.Store.Basic

/-! A store some of whose writes and removals fail: each takes the next entry of a schedule, and an
error there is the answer, with the record untouched. Past the end of a schedule nothing
fails. -/
namespace WalletSession

structure FaultyStore (σ : Type) where
  inner : σ
  saveFaults : List (Option AuthError) := []
  clearFaults : List (Option AuthError) := []

namespace FaultyStore

variable {σ : Type} [TokenStore σ]

def load (s : FaultyStore σ) : SessionToken × FaultyStore σ :=
  let (t, inner) := TokenStore.load s.inner
  (t, { s with inner })

def save (s : FaultyStore σ) (t : SessionToken) : Except AuthError Unit × FaultyStore σ :=
  let later := { s with saveFaults := s.saveFaults.tail }
  match s.saveFaults.head? with
  | some (some e) => (.error e, later)
  | _ =>
    let (answer, inner) := TokenStore.save s.inner t
    (answer, { later with inner })

def clear (s : FaultyStore σ) : Except AuthError Unit × FaultyStore σ :=
  let later := { s with clearFaults := s.clearFaults.tail }
  match s.clearFaults.head? with
  | some (some e) => (.error e, later)
  | _ =>
    let (answer, inner) := TokenStore.clear s.inner
    (answer, { later with inner })

instance : TokenStore (FaultyStore σ) := ⟨load, save, clear⟩

end FaultyStore

end WalletSession
