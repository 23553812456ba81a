import Mathlib.Data.List.Nodup
import WalletSession.Session.Lock

/-! The line at a lock: its holder, and behind it those who wait. Calls join it at its end and leave
it from anywhere. -/
namespace WalletSession.Lock

def line (l : Lock) : List Nat := l.holder.toList ++ l.queue

/-- Nobody waits for a free lock, and nobody stands in line twice. -/
structure Orderly (l : Lock) : Prop where
  used : l.holder = none → l.queue = []
  once : l.line.Nodup

variable {l : Lock} {id : Nat}

theorem mem_line : id ∈ l.line ↔ l.holder = some id ∨ id ∈ l.queue := by simp [line]

theorem arrive_free (free : l.isFree = true) : l.arrive id = { l with holder := some id } :=
  if_pos free

theorem arrive_taken (taken : l.isFree = false) :
    l.arrive id = { l with queue := l.queue ++ [id] } := by simp [arrive, taken]

theorem leave_holder (holds : l.holder = some id) : l.leave id = l.release := if_pos holds

theorem filter_absent {ids : List Nat} (absent : id ∉ ids) : ids.filter (· != id) = ids := by
  rw [List.filter_eq_self]
  rintro other member
  simpa using fun same : other = id => absent (same ▸ member)

theorem leave_absent (absent : id ∉ l.line) : l.leave id = l := by
  rw [mem_line, not_or] at absent
  simp [leave, absent.1, filter_absent absent.2]

namespace Orderly

theorem not_waiting (orderly : l.Orderly) (holds : l.holder = some id) : id ∉ l.queue := by
  have once := orderly.once
  rw [line, holds] at once
  exact (List.nodup_cons.mp once).1

theorem first_of_free (orderly : l.Orderly) (free : l.isFree = true) :
    id ∉ (l.arrive id).queue := by
  rw [arrive_free free, orderly.used (by simpa [isFree] using free)]
  exact List.not_mem_nil

theorem leave_arrive (orderly : l.Orderly) (free : l.isFree = true) :
    ((l.arrive id).leave id).isFree = true := by
  rw [arrive_free free, leave_holder rfl, release, orderly.used (by simpa [isFree] using free)]
  rfl

theorem holder_of_line {behind : List Nat} (orderly : l.Orderly) (line : l.line = id :: behind) :
    l.holder = some id := by
  cases holder : l.holder with
  | none => simp [Lock.line, holder, orderly.used holder] at line
  | some first =>
    rw [Lock.line, holder] at line
    exact congrArg some (List.cons.inj line).1

theorem line_arrive (orderly : l.Orderly) : (l.arrive id).line = l.line ++ [id] := by
  cases holder : l.holder with
  | none => simp [Lock.arrive, isFree, line, holder, orderly.used holder]
  | some other => simp [Lock.arrive, isFree, line, holder]

theorem line_leave (orderly : l.Orderly) : (l.leave id).line = l.line.filter (· != id) := by
  by_cases holds : l.holder = some id
  · rw [leave_holder holds, line, line, holds, Option.toList_some, List.singleton_append,
      List.filter_cons_of_neg (by simp), filter_absent (orderly.not_waiting holds)]
    unfold release
    cases l.queue <;> rfl
  · cases holder : l.holder <;> simp_all [Lock.leave, line]

theorem arrive (orderly : l.Orderly) (absent : id ∉ l.line) : (l.arrive id).Orderly where
  used none := by
    unfold Lock.arrive at none
    split at none
    · cases none
    · simp_all [isFree]
  once := by
    rw [orderly.line_arrive, List.nodup_append]
    refine ⟨orderly.once, List.nodup_singleton id, ?_⟩
    rintro other member last isLast rfl
    rw [List.mem_singleton] at isLast
    exact absent (isLast ▸ member)

theorem leave (orderly : l.Orderly) : (l.leave id).Orderly where
  used none := by
    by_cases holds : l.holder = some id
    · rw [leave_holder holds] at none ⊢
      unfold release at none ⊢
      cases queue : l.queue <;> simp_all
    · simp only [Lock.leave, holds, if_false] at none ⊢
      simp [orderly.used none]
  once := by
    rw [orderly.line_leave]
    exact orderly.once.filter _

end Orderly

end WalletSession.Lock
