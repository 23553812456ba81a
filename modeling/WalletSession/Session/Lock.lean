/-! A lock that is handed over in the order of arrival. Its holder owns it from the moment of the
hand-over, even before it goes on. -/
namespace WalletSession

structure Lock where
  holder : Option Nat := none
  queue : List Nat := []
  deriving DecidableEq, Repr, Inhabited

namespace Lock

def isFree (l : Lock) : Bool := l.holder.isNone

/-- Takes a free lock, or the last place in the queue. -/
def arrive (l : Lock) (id : Nat) : Lock :=
  if l.isFree then { l with holder := some id } else { l with queue := l.queue ++ [id] }

/-- Hands the lock to the first in the queue. -/
def release (l : Lock) : Lock :=
  match l.queue with
  | [] => { holder := none, queue := [] }
  | next :: rest => { holder := some next, queue := rest }

/-- Gives up the lock, or a place in the queue. -/
def leave (l : Lock) (id : Nat) : Lock :=
  if l.holder = some id then l.release else { l with queue := l.queue.filter (· != id) }

end Lock

end WalletSession
