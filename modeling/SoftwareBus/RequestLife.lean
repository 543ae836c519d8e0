import SoftwareBus.Transition

/-! What a request is for its callback: replies for as long as it waits, then nothing, or a single
call that says why no more come. -/
namespace SoftwareBus

open Transition

inductive ReplyStatus
  | reply | timedOut | closed | connectionLost
  deriving DecidableEq

inductive EndOfWait
  /-- The callback returned a true value. -/
  | accepted
  | cancelled
  /-- `send_request` has raised. -/
  | failed
  /-- The callback is told why. -/
  | without (status : ReplyStatus)
  deriving DecidableEq

theorem EndOfWait.without_ne {status : ReplyStatus} (h : status ≠ .reply) :
    EndOfWait.without status ≠ .without .reply := mt EndOfWait.without.inj h

inductive RequestEvent
  /-- A call of the received reply callback starts. -/
  | called (status : ReplyStatus)
  /-- `_end_wait` starts. -/
  | ended (why : EndOfWait)
  deriving DecidableEq

namespace RequestEvent

def isEnd : RequestEvent → Bool
  | .ended _ => true
  | .called _ => false

def tells : RequestEvent → Bool
  | .called status => decide (status ≠ .reply)
  | .ended _ => false

end RequestEvent

inductive RequestLife
  | waiting
  | ended (why : EndOfWait)
  | told (status : ReplyStatus)
  deriving DecidableEq

namespace RequestLife

def next : RequestLife → RequestEvent → Option RequestLife
  | .waiting, .called .reply => some .waiting
  | .waiting, .ended (.without .reply) => none
  | .waiting, .ended why => some (.ended why)
  | .ended (.without status), .called status' => if status' = status then some (.told status) else none
  | _, _ => none

variable {es : List RequestEvent} {why : EndOfWait} {status : ReplyStatus} {l : RequestLife}

theorem next_ended (h : why ≠ .without .reply) : next .waiting (.ended why) = some (.ended why) := by
  match why with
  | .accepted | .cancelled | .failed => rfl
  | .without .timedOut | .without .closed | .without .connectionLost => rfl
  | .without .reply => exact absurd rfl h

@[simp] theorem next_told : next (.ended (.without status)) (.called status) = some (.told status) :=
  if_pos rfl

/-- After the end of the wait there is the call that tells of it, at most. -/
theorem run_ended (h : run next (.ended why) es = some l) :
    es = [] ∨ ∃ status, why = .without status ∧ es = [.called status] := by
  cases es with
  | nil => exact .inl rfl
  | cons e es =>
    right
    obtain ⟨u,hu,hrest⟩ := run_cons h
    match why,e with
    | .without status,.called status' =>
      simp only [next,Option.ite_none_right_eq_some,Option.some.injEq] at hu
      obtain ⟨rfl,rfl⟩ := hu
      cases es with
      | nil => exact ⟨_,rfl,rfl⟩
      | cons e es =>
        obtain ⟨v,hv,-⟩ := run_cons hrest
        cases hv

/-- Before it there are replies only. -/
theorem run_waiting (h : run next .waiting es = some l) :
    (l = .waiting ∧ ∀ e ∈ es, e = .called .reply) ∨
      ∃ rs why ds, es = rs++.ended why::ds ∧ (∀ e ∈ rs, e = .called .reply) ∧
        why ≠ .without .reply ∧ run next (.ended why) ds = some l := by
  induction es with
  | nil =>
    cases h
    exact .inl ⟨rfl,fun e he => nomatch he⟩
  | cons e es ih =>
    obtain ⟨u,hu,hrest⟩ := run_cons h
    match e with
    | .called .reply =>
      cases hu
      rcases ih hrest with ⟨hl,hall⟩ | ⟨rs,why,ds,rfl,hall,hwhy,hds⟩
      · exact .inl ⟨hl,List.forall_mem_cons.mpr ⟨rfl,hall⟩⟩
      · exact .inr ⟨_::rs,why,ds,rfl,List.forall_mem_cons.mpr ⟨rfl,hall⟩,hwhy,hds⟩
    | .ended why =>
      have hwhy : why ≠ .without .reply := by
        rintro rfl
        cases hu
      rw [next_ended hwhy] at hu
      cases hu
      exact .inr ⟨[],why,es,rfl,fun e he => (nomatch he),hwhy,hrest⟩

theorem run_cases (h : run next .waiting es = some l) :
    (∀ e ∈ es, e = .called .reply) ∨ ∃ rs why ds, es = rs++.ended why::ds ∧
      (∀ e ∈ rs, e = .called .reply) ∧ why ≠ .without .reply ∧
      (ds = [] ∨ ∃ status, why = .without status ∧ ds = [.called status]) := by
  rcases run_waiting h with ⟨-,hall⟩ | ⟨rs,why,ds,hes,hall,hwhy,hds⟩
  · exact .inl hall
  · exact .inr ⟨rs,why,ds,hes,hall,hwhy,run_ended hds⟩

theorem countP_replies {p : RequestEvent → Bool} (hp : p (.called .reply) = false)
    (h : ∀ e ∈ es, e = .called .reply) : es.countP p = 0 := by
  apply List.countP_eq_zero.mpr
  intro e he
  rw [h e he,hp]
  exact Bool.false_ne_true

theorem ends_once (h : run next .waiting es = some l) : es.countP RequestEvent.isEnd ≤ 1 := by
  rcases run_cases h with hall | ⟨rs,why,ds,rfl,hall,-,rfl | ⟨status,-,rfl⟩⟩
  · rw [countP_replies rfl hall]
    exact Nat.zero_le 1
  · rw [List.countP_append,countP_replies rfl hall]
    exact Nat.le_refl 1
  · rw [List.countP_append,countP_replies rfl hall]
    exact Nat.le_refl 1

theorem told_once (h : run next .waiting es = some l) : es.countP RequestEvent.tells ≤ 1 := by
  rcases run_cases h with hall | ⟨rs,why,ds,rfl,hall,-,rfl | ⟨status,-,rfl⟩⟩
  · rw [countP_replies rfl hall]
    exact Nat.zero_le 1
  · rw [List.countP_append,countP_replies rfl hall]
    exact Nat.zero_le 1
  · rw [List.countP_append,countP_replies rfl hall]
    match status with
    | .reply => exact Nat.zero_le 1
    | .timedOut | .closed | .connectionLost => exact Nat.le_refl 1

theorem run_split_end {ds : List RequestEvent} (h : run next .waiting (es++.ended why::ds) = some l) :
    why ≠ .without .reply ∧ (ds = [] ∨ ∃ status, why = .without status ∧ ds = [.called status]) ∧
      ∀ e ∈ es, e = .called .reply := by
  obtain ⟨u,hu,hrest⟩ := run_split h
  obtain ⟨v,hv,hds⟩ := run_cons hrest
  rcases run_waiting hu with ⟨rfl,hall⟩ | ⟨rs,why',ds',-,-,-,hds'⟩
  · have hwhy : why ≠ .without .reply := by
      rintro rfl
      cases hv
    rw [next_ended hwhy] at hv
    cases hv
    exact ⟨hwhy,run_ended hds,hall⟩
  · -- nothing ends twice
    rcases run_ended hds' with rfl | ⟨status,rfl,rfl⟩
    · cases hds'
      cases why' <;> cases hv
    · obtain ⟨w,hw,hlast⟩ := run_cons hds'
      rw [next_told] at hw
      cases hw
      cases hlast
      cases hv

theorem silent {ds : List RequestEvent} (h : run next .waiting (es++.ended why::ds) = some l) :
    .called .reply ∉ ds := by
  obtain ⟨hwhy,rfl | ⟨status,rfl,rfl⟩,-⟩ := run_split_end h
  · exact List.not_mem_nil
  · intro hmem
    cases List.mem_singleton.mp hmem
    exact hwhy rfl

theorem untold (h : run next .waiting es = some l) (hmem : .ended why ∈ es)
    (hwhy : ∀ status, why ≠ .without status) : es.countP RequestEvent.tells = 0 := by
  obtain ⟨rs,ds,rfl⟩ := List.append_of_mem hmem
  obtain ⟨-,rfl | ⟨status,hstatus,-⟩,hall⟩ := run_split_end h
  · rw [List.countP_append,countP_replies rfl hall]
    rfl
  · exact absurd hstatus (hwhy status)

theorem ended_iff (h : run next .waiting es = some l) : l ≠ .waiting ↔ ∃ why, .ended why ∈ es := by
  rcases run_waiting h with ⟨rfl,hall⟩ | ⟨rs,why,ds,rfl,hall,hwhy,hds⟩
  · constructor
    · exact fun hl => absurd rfl hl
    · rintro ⟨why,hmem⟩
      cases hall _ hmem
  · constructor
    · exact fun _ => ⟨why,by simp⟩
    · rintro - rfl
      rcases run_ended hds with rfl | ⟨status,rfl,rfl⟩
      · cases hds
      · obtain ⟨u,hu,hrest⟩ := run_cons hds
        rw [next_told] at hu
        cases hu
        cases hrest

end RequestLife
end SoftwareBus
