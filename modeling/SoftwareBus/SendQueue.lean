import SoftwareBus.BaseNodeSteps

/-! The send queue of a connection: its size, the order of what is sent, and that it
is never left without a send loop. -/
namespace SoftwareBus

open Transition

variable {C K D : Type}

def Sender.running : Sender D → Bool
  | .idle => false
  | _ => true

/-- What holds of the queue of a connection. As long as the connection is open, what was put into
the queue is what has been taken from it, followed by what is in it. -/
structure QueuedConnection.Queued (lim : NodeLimits D) (x : QueuedConnection D) : Prop where
  bytes : x.queuedBytes = (x.sendQueue.map lim.length).sum
  bound : x.queuedBytes ≤ lim.sendQueueLimit
  loops : x.sendLoops = if x.sender.running then 1 else 0
  cancelled : x.senderCancelled = true → x.closing = true
  order : x.closing = false → ∃ ds, x.accepted = ds++x.sendQueue ∧ match x.sender with
    | .idle => x.sendQueue = [] ∧ x.written = ds
    | .starting => x.written = ds
    | .sending d => x.sendQueue.head? = some d ∧ x.written = ds++[d]
    | .reporting => ∃ d, x.sendQueue.head? = some d ∧ x.written = ds++[d]
    | .closing => False

namespace QueuedConnection

variable {lim : NodeLimits D} {x y : QueuedConnection D}

theorem unmade_queued : (unmade : QueuedConnection D).Queued lim :=
  ⟨rfl,Nat.zero_le _,rfl,by simp [unmade],fun _ => ⟨[],rfl,rfl,rfl⟩⟩

theorem new_queued : (new : QueuedConnection D).Queued lim :=
  ⟨rfl,Nat.zero_le _,rfl,by simp [new],fun _ => ⟨[],rfl,rfl,rfl⟩⟩

theorem Queued.close (h : x.Queued lim) (ownLoop ownSender : Bool) :
    (x.close ownLoop ownSender).Queued lim :=
  ⟨rfl,Nat.zero_le _,h.loops,fun _ => rfl,by simp⟩

theorem Queued.enqueue (h : x.Queued lim) (data : D)
    (hroom : x.queuedBytes+lim.length data ≤ lim.sendQueueLimit) :
    (x.enqueue data (lim.length data)).Queued lim := by
  have hbytes : x.queuedBytes+lim.length data = ((x.sendQueue++[data]).map lim.length).sum := by
    simp [h.bytes]
  have hhead {d : D} (hd : x.sendQueue.head? = some d) : (x.sendQueue++[data]).head? = some d := by
    rw [List.head?_append,hd]
    rfl
  unfold QueuedConnection.enqueue
  split
  · rename_i hs
    have hloops := h.loops
    rw [hs] at hloops
    refine ⟨hbytes,hroom,by simpa [Sender.running] using hloops,by simp,fun hc => ?_⟩
    obtain ⟨ds,hacc,hs'⟩ := h.order hc
    rw [hs] at hs'
    exact ⟨ds,by simp [hacc],hs'.2⟩
  · rename_i hs
    refine ⟨hbytes,hroom,h.loops,h.cancelled,fun hc => ?_⟩
    obtain ⟨ds,hacc,hs'⟩ := h.order hc
    refine ⟨ds,by simp [hacc],?_⟩
    split at hs'
    · exact absurd ‹_› hs
    · simp [*]
    · simp [*]
    · obtain ⟨d,hd,hw⟩ := hs'
      simp [*]
    · exact hs'.elim

theorem Queued.endSender (h : x.Queued lim) (hr : x.sender.running = true)
    (hc : x.closing = true) : x.endSender.Queued lim := by
  have hloops := h.loops
  rw [if_pos hr] at hloops
  refine ⟨h.bytes,h.bound,?_,by simp [QueuedConnection.endSender],by simp [hc]⟩
  simp [QueuedConnection.endSender,hloops,Sender.running]

theorem sendNext_queued (hbytes : x.queuedBytes = (x.sendQueue.map lim.length).sum)
    (hbound : x.queuedBytes ≤ lim.sendQueueLimit) (hloops : x.sendLoops = 1)
    (hcancelled : x.senderCancelled = true → x.closing = true)
    (hc : x.closing = false → ∃ ds, x.accepted = ds++x.sendQueue ∧ x.written = ds) :
    x.sendNext.Queued lim := by
  unfold QueuedConnection.sendNext
  split
  · rename_i hq
    refine ⟨hbytes,hbound,?_,by simp [QueuedConnection.endSender],fun hcl => ?_⟩
    · simp [QueuedConnection.endSender,hloops,Sender.running]
    · obtain ⟨ds,hacc,hw⟩ := hc hcl
      exact ⟨ds,hacc,hq,hw⟩
  · rename_i d rest hq
    refine ⟨hbytes,hbound,by simpa [Sender.running] using hloops,hcancelled,fun hcl => ?_⟩
    obtain ⟨ds,hacc,hw⟩ := hc hcl
    have hopen : x.closing = false := hcl
    exact ⟨ds,hacc,by simp [hq],by simp [hopen,hw]⟩

theorem Queued.taken (h : x.Queued lim) {data : D} (hs : x.sender = .sending data) :
    (x.taken (lim.length data)).Queued lim := by
  have hr : x.sender.running = true := by simp [hs,Sender.running]
  have hloops := h.loops
  rw [if_pos hr] at hloops
  unfold QueuedConnection.taken
  split
  · exact h.endSender hr ‹_›
  · rename_i hcl
    have hopen : x.closing = false := by simpa using hcl
    obtain ⟨ds,hacc,hs'⟩ := h.order hopen
    rw [hs] at hs'
    obtain ⟨hhead,hw⟩ := hs'
    obtain ⟨rest,hq⟩ : ∃ rest, x.sendQueue = data::rest := by
      cases hq : x.sendQueue with
      | nil => simp [hq] at hhead
      | cons d rest => exact ⟨rest,by simpa [hq] using hhead⟩
    have hbytes := h.bytes
    rw [hq,List.map_cons,List.sum_cons] at hbytes
    refine sendNext_queued ?_ ?_ hloops h.cancelled fun _ => ?_
    · simp [hq,hbytes]
    · exact Nat.le_trans (Nat.sub_le _ _) h.bound
    · exact ⟨ds++[data],by simp [hacc,hq],hw⟩

theorem Queued.sent (h : x.Queued lim) (hopen : x.closing = false) :
    x.written <+: x.accepted ∧ (x.sendQueue ≠ [] → x.sendLoops = 1) := by
  obtain ⟨ds,hacc,hs⟩ := h.order hopen
  have head {d : D} (hd : x.sendQueue.head? = some d) : ds++[d] <+: x.accepted := by
    obtain ⟨rest,hq⟩ := List.head?_eq_some_iff.mp hd
    exact ⟨rest,by simp [hacc,hq]⟩
  rw [h.loops]
  split at hs
  · exact ⟨hs.2 ▸ hacc ▸ List.prefix_append _ _,fun hq => absurd hs.1 hq⟩
  · exact ⟨hs ▸ hacc ▸ List.prefix_append _ _,by simp [*,Sender.running]⟩
  · exact ⟨hs.2 ▸ head hs.1,by simp [*,Sender.running]⟩
  · obtain ⟨d,hd,hw⟩ := hs
    exact ⟨hw ▸ head hd,by simp [*,Sender.running]⟩
  · exact hs.elim

theorem Queued.withLoop (h : x.Queued lim) {c : Connection D} (hc : c.closing = x.closing) :
    {x with toConnection := c}.Queued lim :=
  ⟨h.bytes,h.bound,h.loops,fun hn => hc.trans (h.cancelled hn),fun hn => h.order (hc.symm.trans hn)⟩

theorem Queued.withSender (h : x.Queued lim) (hr : x.sender.running = true) {w : Sender D}
    (hw : w.running = true) (hc : x.closing = true) : {x with sender := w}.Queued lim :=
  ⟨h.bytes,h.bound,by simpa [hr,hw] using h.loops,h.cancelled,by simp [hc]⟩

end QueuedConnection

namespace BaseLayerNode

variable [DecidableEq C] [DecidableEq K] {lim : NodeLimits D} {s t : BaseLayerNode C K D}
  {a : BaseAction C K D}

/-- A send fails on an open connection that another task is dropping and has not closed yet. -/
def failsDropped (s : BaseLayerNode C K D) : BaseAction C K D → Bool
  | .sendFailed c => decide (c ∉ s.allConnections) && !(s.conn c).closing
  | _ => false

theorem Touched.queued {own : Bool → Prop} {x y : QueuedConnection D} (hx : x.Queued lim)
    (h : Touched lim own x y) : y.Queued lim := by
  induction h with
  | refl => exact hx
  | enqueue data _ hroom ih => exact ih.enqueue data hroom
  | close ownLoop ownSender _ _ ih => exact ih.close ownLoop ownSender

theorem step_queued (hs : ∀ c, (s.conn c).Queued lim) (hok : s.failsDropped a = false)
    (h : s.step lim a = some t) (c : C) : (t.conn c).Queued lim := by
  have hc := hs c
  generalize ht : t.conn c = x
  have hchange := ht ▸ step_conn h c
  cases hchange with
  | touched h => exact h.queued hc
  | started => exact QueuedConnection.new_queued
  | loop ev x hx => exact hc.withLoop (Connection.loopStep_kept hx).2
  | failed | gone | closed => exact hc.withLoop rfl
  | reported | reportedAgain => exact (hc.close true false).withLoop rfl
  | sendStopped hs hn => exact hc.endSender (by simp [hs,Sender.running]) (hc.cancelled hn)
  | send hs hn =>
    refine QueuedConnection.sendNext_queued hc.bytes hc.bound ?_ hc.cancelled fun hopen => ?_
    · simpa [hs,Sender.running] using hc.loops
    · obtain ⟨ds,hacc,hs'⟩ := hc.order hopen
      rw [hs] at hs'
      exact ⟨ds,hacc,hs'⟩
  | sent data hs => exact hc.taken hs
  | sendFailed data hs hl =>
    refine ⟨hc.bytes,hc.bound,?_,hc.cancelled,fun hopen => ?_⟩
    · simpa [hs,Sender.running] using hc.loops
    · obtain ⟨ds,hacc,hs'⟩ := hc.order hopen
      rw [hs] at hs'
      exact ⟨ds,hacc,data,hs'⟩
  | sendGone data hs hl =>
    exact hc.endSender (by simp [hs,Sender.running]) (by simpa [failsDropped,hl] using hok)
  | sendCancelled data hs hn => exact hc.endSender (by simp [hs,Sender.running]) (hc.cancelled hn)
  | sendReported hs =>
    exact (hc.close false true).withSender (by simp [QueuedConnection.close,hs,Sender.running]) rfl rfl
  | sendReportedAgain hs =>
    exact (hc.close false true).endSender (by simp [QueuedConnection.close,hs,Sender.running]) rfl
  | sendClosed hs =>
    refine hc.endSender (by simp [hs,Sender.running]) ?_
    by_contra hopen
    obtain ⟨ds,-,hs'⟩ := hc.order (by simpa using hopen)
    rw [hs] at hs'
    exact hs'

/-- As long as no send fails on a connection that another task is dropping, the queue of a
connection has the size it should have and at most one send loop, and while the connection is open
it is sent in order and never left without one. -/
theorem queue_sent {as : List (BaseAction C K D)}
    (hrun : run (step lim) (init : BaseLayerNode C K D) as = some s)
    (hok : Guarded (step lim) (fun s a => s.failsDropped a = false) (init : BaseLayerNode C K D) as)
    (c : C) :
    (s.conn c).queuedBytes = ((s.conn c).sendQueue.map lim.length).sum ∧
      (s.conn c).queuedBytes ≤ lim.sendQueueLimit ∧ (s.conn c).sendLoops ≤ 1 ∧
        ((s.conn c).closing = false → (s.conn c).written <+: (s.conn c).accepted ∧
          ((s.conn c).sendQueue ≠ [] → (s.conn c).sendLoops = 1)) := by
  have hinv : ∀ c, (s.conn c).Queued lim :=
    run_invariant (I := fun s => ∀ c, (s.conn c).Queued lim)
      (fun s a t hs hok ht => step_queued hs hok ht) (fun _ => QueuedConnection.unmade_queued) hok hrun
  have h := hinv c
  refine ⟨h.bytes,h.bound,?_,h.sent⟩
  rw [h.loops]
  split <;> decide

def shortLimits : NodeLimits ℕ := ⟨id,10,4⟩

theorem queue_sent_two : ∃ s : BaseLayerNode ℕ ℕ ℕ,
    run (step shortLimits) init [.start 0 true,.relay 0 none [0] 1,.send 0,.relay 0 none [0] 2,.sent 0] =
      some s ∧ (s.conn 0).written <+: (s.conn 0).accepted := by
  have hrun := Option.some_get (show (run (step shortLimits) (init : BaseLayerNode ℕ ℕ ℕ)
    [.start 0 true,.relay 0 none [0] 1,.send 0,.relay 0 none [0] 2,.sent 0]).isSome by decide)
  exact ⟨_,hrun.symm,((queue_sent hrun.symm (by decide) 0).2.2.2 (by decide)).1⟩

/-- The queue of a connection gets too full while some data of it are being sent. While the
connection error callback runs the send fails, so the send loop gives up; other data that another
call still has to queue on the connection then start a new loop, which sends the first data again. -/
def sentTwiceRun : List (BaseAction ℕ ℕ ℕ) :=
  [.start 0 true,.relay 0 none [0] 1,.send 0,.relay 0 none [0] 4,.sendFailed 0,.relay 1 none [0] 2,
    .send 0]

theorem not_queue_sent : ∃ s : BaseLayerNode ℕ ℕ ℕ,
    run (step shortLimits) init sentTwiceRun = some s ∧ (s.conn 0).closing = false ∧
      (s.conn 0).written = [1,1] ∧ ¬(s.conn 0).written <+: (s.conn 0).accepted := by
  have hrun := Option.some_get (show (run (step shortLimits) (init : BaseLayerNode ℕ ℕ ℕ)
    sentTwiceRun).isSome by decide)
  exact ⟨_,hrun.symm,by decide,by decide,by decide⟩

end BaseLayerNode
end SoftwareBus
