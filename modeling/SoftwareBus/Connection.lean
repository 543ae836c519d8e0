import SoftwareBus.Transition
import Mathlib.Logic.Function.Basic
import Mathlib.Data.List.Basic

/-! One connection, as the task that reads it sees it. A node reads it in
`_relay_loop` and a client in `_receive_loop`; both call a receive callback, which
may be any code, with each message. -/
namespace SoftwareBus

inductive Loop
  | reading
  /-- In the receive callback. -/
  | callback
  /-- In the connection error callback. -/
  | reporting
  /-- For the socket to close, after an error. -/
  | closing
  | ended
  deriving DecidableEq

structure Connection (D : Type) where
  made : Bool
  loop : Loop
  /-- The loop has been cancelled, and nothing has caught the cancellation yet. -/
  cancelled : Bool
  /-- `writer.is_closing()` -/
  closing : Bool
  /-- The complete messages in the reader. -/
  buffer : List D
  /-- The messages the receive callback has been called with. -/
  received : List D

inductive LoopEvent (D : Type)
  | feed (data : D)
  | read
  /-- The receive callback returns, or raises an `Exception`. -/
  | returned
  /-- The receive callback catches the cancellation of the loop and goes on. -/
  | swallow
  /-- The receive callback lets an `asyncio.CancelledError` escape. -/
  | escape
  /-- The loop is cancelled while it waits for a message. -/
  | stop
  deriving DecidableEq

namespace Connection

variable {D : Type}

def unmade : Connection D := ⟨false,.ended,false,false,[],[]⟩

def new (loop : Loop) : Connection D := ⟨true,loop,false,false,[],[]⟩

/-- `Connection.close` up to where it waits for the socket; `own` if the loop of the
connection is the task that closes it. -/
def close (c : Connection D) (own : Bool) : Connection D :=
  {c with cancelled := c.cancelled || !own, closing := true}

def loopStep (c : Connection D) : LoopEvent D → Option (Connection D)
  | .feed d => if c.made = true ∧ c.closing = false then some {c with buffer := c.buffer++[d]} else none
  | .read =>
    match c.buffer with
    | d::ds =>
      if c.loop = .reading ∧ c.cancelled = false then
        some {c with loop := .callback, buffer := ds, received := c.received++[d]}
      else none
    | [] => none
  | .returned =>
    if c.loop = .callback ∧ c.cancelled = false then some {c with loop := .reading} else none
  | .swallow =>
    if c.loop = .callback ∧ c.cancelled = true then some {c with cancelled := false} else none
  | .escape => if c.loop = .callback then some {c with loop := .ended} else none
  | .stop => if c.loop = .reading ∧ c.cancelled = true then some {c with loop := .ended} else none

def inCallback (c : Connection D) : Bool := decide (c.loop = .callback ∨ c.loop = .reporting)

@[simp] theorem close_made (c : Connection D) (own : Bool) : (c.close own).made = c.made := rfl
@[simp] theorem close_loop (c : Connection D) (own : Bool) : (c.close own).loop = c.loop := rfl
@[simp] theorem close_closing (c : Connection D) (own : Bool) : (c.close own).closing = true := rfl
@[simp] theorem close_buffer (c : Connection D) (own : Bool) : (c.close own).buffer = c.buffer := rfl
@[simp] theorem close_received (c : Connection D) (own : Bool) :
    (c.close own).received = c.received := rfl
@[simp] theorem close_cancelled (c : Connection D) (own : Bool) :
    (c.close own).cancelled = (c.cancelled || !own) := rfl

theorem loopStep_kept {c x : Connection D} {ev : LoopEvent D} (h : c.loopStep ev = some x) :
    x.made = c.made ∧ x.closing = c.closing := by
  cases ev with
  | read =>
    simp only [loopStep] at h
    split at h <;> try contradiction
    obtain ⟨-,rfl⟩ := by simpa using h
    exact ⟨rfl,rfl⟩
  | _ =>
    simp only [loopStep,Option.ite_none_right_eq_some,Option.some.injEq] at h
    obtain ⟨-,rfl⟩ := h
    exact ⟨rfl,rfl⟩

/-- Without an escape a loop that has met no error goes on, unless it is cancelled. -/
theorem loopStep_reading {c x : Connection D} {ev : LoopEvent D} (h : c.loopStep ev = some x)
    (hl : c.loop = .reading ∨ c.loop = .callback) :
    x.loop = .reading ∨ x.loop = .callback ∨ ev = .escape ∨ c.cancelled = true := by
  cases ev with
  | read =>
    simp only [loopStep] at h
    split at h <;> try contradiction
    obtain ⟨-,rfl⟩ := by simpa using h
    exact .inr (.inl rfl)
  | feed | swallow =>
    simp only [loopStep,Option.ite_none_right_eq_some,Option.some.injEq] at h
    obtain ⟨-,rfl⟩ := h
    exact hl.imp_right .inl
  | returned =>
    simp only [loopStep,Option.ite_none_right_eq_some,Option.some.injEq] at h
    obtain ⟨-,rfl⟩ := h
    exact .inl rfl
  | escape => exact .inr (.inr (.inl rfl))
  | stop =>
    simp only [loopStep,Option.ite_none_right_eq_some,Option.some.injEq] at h
    exact .inr (.inr (.inr h.1.2))

theorem loopStep_cancelled {c x : Connection D} {ev : LoopEvent D} (h : c.loopStep ev = some x)
    (hx : x.cancelled = true) : c.cancelled = true := by
  cases ev with
  | read =>
    simp only [loopStep] at h
    split at h <;> try contradiction
    obtain ⟨-,rfl⟩ := by simpa using h
    exact hx
  | swallow =>
    simp only [loopStep,Option.ite_none_right_eq_some,Option.some.injEq] at h
    exact h.1.2
  | _ =>
    simp only [loopStep,Option.ite_none_right_eq_some,Option.some.injEq] at h
    obtain ⟨-,rfl⟩ := h
    exact hx

theorem loopStep_escape {c x : Connection D} (h : c.loopStep .escape = some x) :
    x = {c with loop := .ended} := by
  simp only [loopStep,Option.ite_none_right_eq_some,Option.some.injEq] at h
  exact h.2.symm

end Connection
end SoftwareBus
