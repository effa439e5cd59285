/-
# A slot in front of a queue

An outbox hands its entries on one at a time: the entry in its slot is sent
next, a queue waits behind the slot, and the slot is refilled from the queue.
A new entry goes into the slot if that is empty, and else to the end of the
queue.

`Outbox.line` reads an outbox as one list: what was sent, then the slot, then
the queue. Refilling and sending leave the line. A new entry comes at its end,
unless it finds the slot empty in front of a queue: then it overtakes.

Key definitions: `Outbox`, `Outbox.line`, `Outbox.post`, `Outbox.refill`,
`Outbox.send`.
Key theorems: `Outbox.line_post`, `Outbox.line_post_perm`.
-/
import Mathlib.Data.List.Perm.Basic

structure Outbox (α : Type) where
  sent : List α
  slot : Option α
  queue : List α

namespace Outbox

variable {α : Type} (o : Outbox α)

def line : List α := o.sent ++ o.slot.toList ++ o.queue

/-- Put an entry into the slot, or behind it into the queue. -/
def post (a : α) : Outbox α :=
  match o.slot with
  | none => { o with slot := some a }
  | some _ => { o with queue := o.queue ++ [a] }

/-- Fill the empty slot from the queue. -/
def refill : Outbox α :=
  match o.slot, o.queue with
  | none, a :: queue => { o with slot := some a, queue := queue }
  | _, _ => o

/-- Send the entry in the slot. -/
def send : Outbox α :=
  match o.slot with
  | none => o
  | some a => { o with sent := o.sent ++ [a], slot := none }

@[simp] theorem line_refill : o.refill.line = o.line := by
  rcases o with ⟨sent, _ | a, _ | ⟨a', queue⟩⟩ <;> simp [refill, line]

@[simp] theorem line_send : o.send.line = o.line := by
  rcases o with ⟨sent, _ | a, queue⟩ <;> simp [send, line]

/-- An entry put into the empty slot of an empty queue. -/
theorem line_enter {o : Outbox α} (hs : o.slot = none) (hq : o.queue = []) (a : α) :
    line { o with slot := some a } = o.line ++ [a] := by
  simp [line, hs, hq]

theorem line_post {o : Outbox α} (h : o.slot = none → o.queue = []) (a : α) :
    (o.post a).line = o.line ++ [a] := by
  rcases o with ⟨sent, _ | a', queue⟩
  · exact line_enter rfl (h rfl) a
  · simp [post, line]

theorem line_post_perm (a : α) : (o.post a).line.Perm (o.line ++ [a]) := by
  rcases o with ⟨sent, _ | a', queue⟩
  · simp only [post, line, Option.toList_some, Option.toList_none, List.append_nil, List.append_assoc]
    exact List.perm_append_comm.append_left sent
  · rw [line_post (by simp)]

end Outbox
