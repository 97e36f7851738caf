import KeaDhcp.Infra.Run
import Mathlib.Tactic.SplitIfs

/-!
# The sender of name change requests

`NameChangeSender` of `src/lib/dhcp_ddns/ncr_io.cc` keeps its requests in a queue and hands the
front one to a transport, which completes the send later. The handler of the application is told,
and it may stop the sender.
-/

namespace DhcpDdns

open Infra

variable {Ncr : Type}

inductive Result
  | success | timeOut | stopped | error
  deriving DecidableEq

structure NameChangeSender (Ncr : Type) where
  sending : Bool := false
  ncrToSend : Option Ncr := none
  sendQueue : List Ncr := []
  sendQueueMax : Nat
  /-- Whether `io_service_` is set. -/
  ioService : Bool := false

inductive Event (Ncr : Type)
  | queued (ncr : Ncr)
  /-- Given to `doSend`, which may fail without scheduling the send. -/
  | handed (ncr : Ncr) (scheduled : Bool)
  | completed (ncr : Ncr) (result : Result)

/-- A sender, with the sends that its transport has not completed and with its history. -/
structure Sending (Ncr : Type) extends NameChangeSender Ncr where
  outstanding : List Ncr := []
  events : List (Event Ncr) := []

/-- How a call of `doSend` ends. -/
structure DoSend where
  scheduled : Bool
  throws : Bool

inductive NcrSenderError
  | alreadySending | openFailed | notReady | emptyRequest | queueFull | sendFailed

namespace NameChangeSender

def doSend (send : DoSend) (ncr : Ncr) (s : Sending Ncr) : Option NcrSenderError × Sending Ncr :=
  (if send.throws then some .sendFailed else none, { s with
    outstanding := if send.scheduled then s.outstanding ++ [ncr] else s.outstanding
    events := s.events ++ [.handed ncr send.scheduled] })

def sendNext (send : DoSend) (s : Sending Ncr) : Option NcrSenderError × Sending Ncr :=
  match s.ncrToSend, s.sendQueue with
  | none, ncr :: _ => doSend send ncr { s with ncrToSend := some ncr }
  | _, _ => (none, s)

/-- If an IO is ready, `runReady` is what it does. -/
def stopSending (runReady : Sending Ncr → Sending Ncr) (s : Sending Ncr) : Sending Ncr :=
  let s := { s with sending := false }
  { (if s.ioService then runReady s else s) with ioService := false }

def startSending (opens : Bool) (runReady : Sending Ncr → Sending Ncr) (send : DoSend)
    (s : Sending Ncr) : Option NcrSenderError × Sending Ncr :=
  if s.sending then (some .alreadySending, s)
  else
    let s := { s with ncrToSend := none, ioService := true }
    if opens then sendNext send { s with sending := true }
    else (some .openFailed, stopSending runReady s)

def sendRequest (ncr : Option Ncr) (send : DoSend) (s : Sending Ncr) :
    Option NcrSenderError × Sending Ncr :=
  if !s.sending then (some .notReady, s)
  else
    match ncr with
    | none => (some .emptyRequest, s)
    | some ncr =>
      if s.sendQueue.length ≥ s.sendQueueMax then (some .queueFull, s)
      else sendNext send
        { s with sendQueue := s.sendQueue ++ [ncr], events := s.events ++ [.queued ncr] }

/-- `sendHandler` is called with the result, and `failHandler` if the next send has thrown. -/
def invokeSendHandler (result : Result) (sendHandler : Sending Ncr → Sending Ncr) (send : DoSend)
    (failHandler : Sending Ncr → Sending Ncr) (s : Sending Ncr) : Sending Ncr :=
  let s := if result = .success then { s with sendQueue := s.sendQueue.tail } else s
  let s := { sendHandler s with ncrToSend := none }
  if s.sending then
    match sendNext send s with
    | (none, s) => s
    | (some _, s) => failHandler s
  else s

inductive AssumeError
  | sourceSending | targetSending | tooMany | notEmpty

def assumeQueue (target source : NameChangeSender Ncr) :
    Except AssumeError (NameChangeSender Ncr × NameChangeSender Ncr) :=
  if source.sending then .error .sourceSending
  else if target.sending then .error .targetSending
  else if target.sendQueueMax < source.sendQueue.length then .error .tooMany
  else if !target.sendQueue.isEmpty then .error .notEmpty
  else .ok ({ target with sendQueue := source.sendQueue },
    { source with sendQueue := target.sendQueue })

end NameChangeSender

open NameChangeSender

mutual

/-- A send is completed; with what the handler then does, how the next `doSend` ends, and what the
handler does if that throws. -/
inductive Completion
  | intro (result : Result) (told : Reaction) (send : DoSend) (failed : Reaction)

/-- The handler may stop the sender, which may run a completion that is ready. -/
inductive Reaction
  | goOn
  | stop
  | stopReady (completion : Completion)

end

mutual

def complete : Completion → Sending Ncr → Sending Ncr
  | .intro result told send failed, s =>
    match s.outstanding with
    | [] => s
    | ncr :: rest =>
      invokeSendHandler result (react told) send (react failed)
        { s with outstanding := rest, events := s.events ++ [.completed ncr result] }

def react : Reaction → Sending Ncr → Sending Ncr
  | .goOn => id
  | .stop => stopSending id
  | .stopReady completion => stopSending (complete completion)

end

inductive Operation (Ncr : Type)
  | sendRequest (ncr : Option Ncr) (send : DoSend)
  | startSending (opens : Bool) (ready : Option Completion) (send : DoSend)
  | stopSending (ready : Option Completion)
  | complete (completion : Completion)

def step : Operation Ncr → Sending Ncr → Sending Ncr
  | .sendRequest ncr send, s => (sendRequest ncr send s).2
  | .startSending opens ready send, s => (startSending opens (ready.elim id complete) send s).2
  | .stopSending ready, s => stopSending (ready.elim id complete) s
  | .complete completion, s => complete completion s

/-- `startSending` is not called over an outstanding send, so that there were two. -/
def OneSend : Operation Ncr → Sending Ncr → Prop
  | .startSending opens ready send, s =>
    (step (.startSending opens ready send) s).outstanding.length ≤ 1
  | _, _ => True

/-! ## A queue that is served in order -/

/--
The histories of such a queue, with what is queued and outstanding at their ends: the front request
is handed out, and stays there until its send succeeds.
-/
inductive InOrder : List (Event Ncr) → List Ncr → List Ncr → Prop
  | start : InOrder [] [] []
  | queued {es : List (Event Ncr)} {q out : List Ncr} (ncr : Ncr) (h : InOrder es q out) :
      InOrder (es ++ [.queued ncr]) (q ++ [ncr]) out
  | scheduled {es : List (Event Ncr)} {ncr : Ncr} {q : List Ncr} (h : InOrder es (ncr :: q) []) :
      InOrder (es ++ [.handed ncr true]) (ncr :: q) [ncr]
  | refused {es : List (Event Ncr)} {ncr : Ncr} {q out : List Ncr}
      (h : InOrder es (ncr :: q) out) : InOrder (es ++ [.handed ncr false]) (ncr :: q) out
  | shipped {es : List (Event Ncr)} {ncr : Ncr} {q : List Ncr} (h : InOrder es (ncr :: q) [ncr]) :
      InOrder (es ++ [.completed ncr .success]) q []
  | kept {es : List (Event Ncr)} {ncr : Ncr} {q : List Ncr} {result : Result}
      (h : InOrder es (ncr :: q) [ncr]) (hresult : result ≠ .success) :
      InOrder (es ++ [.completed ncr result]) (ncr :: q) []

def queuedIn (es : List (Event Ncr)) : List Ncr :=
  es.filterMap fun | .queued ncr => some ncr | _ => none

def shippedIn (es : List (Event Ncr)) : List Ncr :=
  es.filterMap fun | .completed ncr .success => some ncr | _ => none

namespace InOrder

variable {es : List (Event Ncr)} {q out : List Ncr}

theorem outstanding (h : InOrder es q out) :
    out = [] ∨ ∃ ncr rest, out = [ncr] ∧ q = ncr :: rest := by
  induction h with
  | start | shipped | kept => exact .inl rfl
  | scheduled => exact .inr ⟨_, _, rfl, rfl⟩
  | refused _ ih => exact ih
  | queued ncr _ ih =>
    refine ih.imp_right ?_
    rintro ⟨front, rest, hout, rfl⟩
    exact ⟨front, rest ++ [ncr], hout, rfl⟩

/-- Nothing is lost, duplicated or reordered. -/
theorem conserved (h : InOrder es q out) : queuedIn es = shippedIn es ++ q := by
  induction h with
  | start => rfl
  | queued _ _ ih | scheduled _ ih | refused _ ih | shipped _ ih => simp_all [queuedIn, shippedIn]
  | @kept es ncr q result _ hresult ih =>
    cases result with
    | success => exact absurd rfl hresult
    | timeOut | stopped | error => simp_all [queuedIn, shippedIn]

end InOrder

/-! ## The sender -/

structure Ordered (s : Sending Ncr) : Prop where
  inOrder : InOrder s.events s.sendQueue s.outstanding
  bounded : s.sendQueue.length ≤ s.sendQueueMax
  /-- While the sender is sending, the marker is set for an outstanding send. -/
  pending : s.sending = true → s.ncrToSend = none → s.outstanding = []

variable {s : Sending Ncr} {send : DoSend} {f g : Sending Ncr → Sending Ncr}

theorem sendNext_ordered (h : InOrder s.events s.sendQueue s.outstanding)
    (hbounded : s.sendQueue.length ≤ s.sendQueueMax)
    (hone : (sendNext send s).2.outstanding.length ≤ 1) : Ordered (sendNext send s).2 := by
  unfold sendNext at hone ⊢
  split
  · rename_i ncr rest hmarker hqueue
    rw [hmarker, hqueue] at hone
    rw [hqueue] at h
    cases hsend : send.scheduled with
    | true =>
      have hnone : s.outstanding = [] := by simpa [doSend, hsend] using hone
      rw [hnone] at h
      refine ⟨?_, hbounded, nofun⟩
      simp only [doSend, hsend, hqueue, hnone]
      exact .scheduled h
    | false =>
      refine ⟨?_, hbounded, nofun⟩
      simp only [doSend, hsend, hqueue]
      exact .refused h
  · rename_i hnot
    refine ⟨h, hbounded, fun _ hmarker => ?_⟩
    rcases h.outstanding with hout | ⟨ncr, rest, -, hqueue⟩
    · exact hout
    · exact (hnot ncr rest hmarker hqueue).elim

theorem Ordered.sendNext (send : DoSend) (h : Ordered s) (hsending : s.sending = true) :
    Ordered (NameChangeSender.sendNext send s).2 := by
  refine sendNext_ordered h.inOrder h.bounded ?_
  unfold NameChangeSender.sendNext
  split
  · rename_i hmarker _
    simp only [doSend, h.pending hsending hmarker]
    cases send.scheduled <;> simp
  · rcases h.inOrder.outstanding with hout | ⟨_, _, hout, -⟩ <;> simp [hout]

theorem stopSending_ordered (hf : ∀ s, Ordered s → Ordered (f s)) (h : Ordered s) :
    Ordered (stopSending f s) := by
  have hstopped : Ordered { s with sending := false } := ⟨h.inOrder, h.bounded, nofun⟩
  unfold stopSending
  dsimp only
  split
  · obtain ⟨hin, hbounded, hpending⟩ := hf _ hstopped
    exact ⟨hin, hbounded, hpending⟩
  · exact ⟨h.inOrder, h.bounded, nofun⟩

theorem complete_idle {c : Completion} (h : s.outstanding = []) : complete c s = s := by
  obtain ⟨result, told, send, failed⟩ := c
  rw [complete, h]

/-- A handler that is called while nothing is outstanding sends nothing. -/
theorem react_idle (r : Reaction) (h : s.outstanding = []) : (react r s).outstanding = [] := by
  cases r with
  | goOn => exact h
  | stop =>
    simp only [react, stopSending]
    split <;> exact h
  | stopReady c =>
    have hnone := complete_idle (s := { s with sending := false }) (c := c) h
    simp only [react, stopSending, hnone]
    split <;> exact h

theorem invokeSendHandler_ordered {result : Result} {s' : Sending Ncr}
    (hs : (if result = .success then { s with sendQueue := s.sendQueue.tail } else s) = s')
    (h : Ordered s') (hout : s'.outstanding = [])
    (hf : ∀ s, Ordered s → s.outstanding = [] → Ordered (f s) ∧ (f s).outstanding = [])
    (hg : ∀ s, Ordered s → Ordered (g s)) : Ordered (invokeSendHandler result f send g s) := by
  unfold invokeSendHandler
  rw [hs]
  obtain ⟨htold, hidle⟩ := hf s' h hout
  have hcleared : Ordered { f s' with ncrToSend := none } :=
    ⟨htold.inOrder, htold.bounded, fun _ _ => hidle⟩
  dsimp only
  split
  · rename_i hsending
    have hnext := hcleared.sendNext send hsending
    split
    · rename_i hrun
      rwa [hrun] at hnext
    · rename_i hrun
      rw [hrun] at hnext
      exact hg _ hnext
  · exact hcleared

mutual

theorem complete_ordered (c : Completion) (s : Sending Ncr) (h : Ordered s) :
    Ordered (complete c s) := by
  obtain ⟨result, told, send, failed⟩ := c
  rw [complete]
  have hin := h.inOrder
  rcases hin.outstanding with hout | ⟨ncr, rest, hout, hqueue⟩
  · rw [hout]
    exact h
  rw [hout, hqueue] at hin
  rw [hout]
  refine invokeSendHandler_ordered rfl ?_ (by split <;> rfl)
    (fun s hs hidle => ⟨react_ordered told s hs, react_idle told hidle⟩) (react_ordered failed)
  by_cases hresult : result = .success
  · rw [if_pos hresult]
    refine ⟨?_, ?_, fun _ _ => rfl⟩
    · rw [hqueue, hresult]
      exact .shipped hin
    · rw [List.length_tail]
      exact Nat.le_trans (Nat.sub_le _ _) h.bounded
  · rw [if_neg hresult]
    refine ⟨?_, h.bounded, fun _ _ => rfl⟩
    rw [hqueue]
    exact .kept hin hresult

theorem react_ordered (r : Reaction) (s : Sending Ncr) (h : Ordered s) : Ordered (react r s) := by
  cases r with
  | goOn => exact h
  | stop => exact stopSending_ordered (fun _ h => h) h
  | stopReady c => exact stopSending_ordered (complete_ordered c) h

end

theorem sendRequest_ordered {ncr : Option Ncr} (h : Ordered s) :
    Ordered (sendRequest ncr send s).2 := by
  unfold sendRequest
  split
  · exact h
  rename_i hsending
  split
  · exact h
  split
  · exact h
  rename_i hfull
  refine Ordered.sendNext send ⟨.queued _ h.inOrder, ?_, h.pending⟩ (by simpa using hsending)
  rw [List.length_append]
  exact Nat.not_le.mp hfull

theorem step_ordered {o : Operation Ncr} (h : Ordered s) (hone : OneSend o s) :
    Ordered (step o s) := by
  have hready (ready : Option Completion) (s : Sending Ncr) (h : Ordered s) :
      Ordered (ready.elim id complete s) := by
    cases ready with
    | none => exact h
    | some c => exact complete_ordered c s h
  cases o with
  | sendRequest ncr send => exact sendRequest_ordered h
  | stopSending ready => exact stopSending_ordered (hready ready) h
  | complete c => exact complete_ordered c s h
  | startSending opens ready send =>
    unfold OneSend step startSending at hone
    unfold step startSending
    dsimp only at hone ⊢
    split
    · exact h
    rename_i hsending
    rw [if_neg hsending] at hone
    cases opens with
    | true => exact sendNext_ordered h.inOrder h.bounded hone
    | false =>
      exact stopSending_ordered (hready ready)
        ⟨h.inOrder, h.bounded, fun hs => absurd hs hsending⟩

theorem assumeQueue_eq_ok {target source target' source' : NameChangeSender Ncr}
    (h : assumeQueue target source = .ok (target', source')) :
    target'.sendQueue = source.sendQueue ∧ source'.sendQueue = [] ∧
      target'.sendQueue.length ≤ target'.sendQueueMax := by
  unfold assumeQueue at h
  split_ifs at h with _ _ hfew hempty
  cases h
  exact ⟨rfl, by simpa using hempty, Nat.not_lt.mp hfew⟩

/--
**The requests are sent in order**, whatever their sends come to and whenever the sender is stopped,
unless it is started over a send that is outstanding. A sender that takes over gets the whole queue.
-/
theorem sent_in_order {max : Nat} (h : Reaches step OneSend { sendQueueMax := max } s) :
    InOrder s.events s.sendQueue s.outstanding ∧ s.sendQueue.length ≤ s.sendQueueMax ∧
    (∀ ncr ∈ s.outstanding, s.outstanding = [ncr] ∧ s.sendQueue.head? = some ncr) ∧
    queuedIn s.events = shippedIn s.events ++ s.sendQueue ∧
    ∀ target target' source',
      assumeQueue target s.toNameChangeSender = .ok (target', source') →
        target'.sendQueue = s.sendQueue ∧ source'.sendQueue = [] ∧
          target'.sendQueue.length ≤ target'.sendQueueMax := by
  have hordered : Ordered s := h.inv ⟨.start, Nat.zero_le _, fun _ _ => rfl⟩
    fun o s hs hone => step_ordered hs hone
  refine ⟨hordered.inOrder, hordered.bounded, fun ncr hncr => ?_, hordered.inOrder.conserved,
    fun _ _ _ => assumeQueue_eq_ok⟩
  rcases hordered.inOrder.outstanding with hout | ⟨front, rest, hout, hqueue⟩
  · rw [hout] at hncr
    cases hncr
  · rw [hout, List.mem_singleton] at hncr
    rw [hout, hqueue, hncr]
    exact ⟨rfl, rfl⟩

/-- The first of two sends fails, and the same request is sent again. -/
theorem sent_in_order_sample : ∃ s : Sending Nat, s.sendQueue = [1, 2] ∧ s.outstanding = [1] ∧
    queuedIn s.events = shippedIn s.events ++ s.sendQueue := by
  let send : DoSend := ⟨true, false⟩
  have hreach : Reaches step OneSend ({ sendQueueMax := 5 } : Sending Nat)
      (step (.complete (.intro .error .goOn send .goOn)) (step (.sendRequest (some 2) send)
        (step (.sendRequest (some 1) send) (step (.startSending true none send) _)))) :=
    .next _ (.next _ (.next _ (.next _ .start (Nat.zero_le 1)) trivial) trivial) trivial
  exact ⟨_, rfl, rfl, (sent_in_order hreach).2.2.2.1⟩

end DhcpDdns
