/-
What a connection has said, at every point of its life.

Polls apart, the history of a connection is a row of exchanges, each of them a request,
what the session made of it and the response that goes with that as `Responds` has it, and
then a `Tail`: the request in progress, or how the connection ended.  A failure the session
reports is an exchange like any other.
-/
import Keyring.Cli.Handle
import Keyring.Lib.History

namespace Keyring.Cli.Handle

open Keyring.Service (AgentError)

variable {Req Body : Type*} {stop : Watch} {now : Instant} {place place' : Place Req Body}
  {input : Input Req Body} {w w' : World Req Body} {i j : ConnId}

/-! ### What one step can do -/

/-- The deadline of the request in progress. -/
def Place.deadline : Place Req Body → Option Instant
  | .handling _ deadline => some deadline
  | .sending _ deadline => some deadline
  | _ => none

/-- The two places where a stop is looked for. -/
inductive Looks : Place Req Body → Prop
  | top : Looks .top
  | select : Looks .select

/-- One step of a connection, by what happens. -/
inductive Move (stop : Watch) (now : Instant) :
    Place Req Body → Place Req Body → List (Event Req Body) → Prop
  | enter (h : stop.value = false) : Move stop now .top .select []
  | stopped {place : Place Req Body} (hplace : Looks place) (h : stop.changed = true) :
      Move stop now place (.closed (.ok ())) [.stopped]
  | polled (h : stop.changed = false) : Move stop now .select .wire [.polled]
  | pending : Move stop now .wire .select [.pending]
  | decoded (req : Req) :
      Move stop now .wire (.handling req (now + requestTimeout))
        [.decoded req (now + requestTimeout)]
  | disconnected : Move stop now .wire (.closed (.ok ())) [.disconnected]
  | undecodable (error : AgentError) :
      Move stop now .wire (.closed (.error error)) [.undecodable error]
  | handled (req : Req) (deadline : Instant) (outcome : Except AgentError (Response Body)) :
      Move stop now (.handling req deadline) (.sending (responseOf outcome) deadline)
        [.handled outcome]
  | sent (res : Response Body) (deadline : Instant) :
      Move stop now (.sending res deadline) .top [.sent res]
  | unsent (res : Response Body) (deadline : Instant) (error : AgentError) :
      Move stop now (.sending res deadline) (.closed (.error error)) [.unsent error]
  | timedOut {place : Place Req Body} {deadline : Instant}
      (hplace : place.deadline = some deadline) (h : deadline ≤ now) :
      Move stop now place (.closed (.error elapsedError)) [.timedOut]

/-- **Every step is a move.** -/
theorem Move.of_advance {events : List (Event Req Body)}
    (h : advance stop now place input = some (place', events)) :
    Move stop now place place' events := by
  unfold advance at h
  split at h
  · by_cases hvalue : stop.value = true
    · rw [if_pos hvalue] at h
      cases h
      exact .stopped .top (by simp [Watch.changed, hvalue])
    · rw [if_neg hvalue] at h
      cases h
      exact .enter (by simpa using hvalue)
  · by_cases hchanged : stop.changed = true
    · rw [if_pos hchanged] at h
      cases h
      exact .stopped .select hchanged
    · rw [if_neg hchanged] at h
      cases h
      exact .polled (by simpa using hchanged)
  · cases h
    exact .pending
  · cases h
    exact .decoded _
  · cases h
    exact .disconnected
  · cases h
    exact .undecodable _
  · cases h
    exact .handled _ _ _
  · rename_i deadline
    by_cases hover : deadline ≤ now
    · rw [if_pos hover] at h
      cases h
      exact .timedOut rfl hover
    · rw [if_neg hover] at h
      cases h
  · cases h
    exact .sent _ _
  · cases h
    exact .unsent _ _ _
  · rename_i deadline
    by_cases hover : deadline ≤ now
    · rw [if_pos hover] at h
      cases h
      exact .timedOut rfl hover
    · rw [if_neg hover] at h
      cases h
  · cases h

@[simp] theorem moved_conns (w : World Req Body) (i : ConnId) (place : Place Req Body)
    (events : List (Event Req Body)) :
    (w.moved i place events).conns = Function.update w.conns i place := rfl

@[simp] theorem moved_log (w : World Req Body) (i : ConnId) (place : Place Req Body)
    (events : List (Event Req Body)) :
    (w.moved i place events).log = w.log ++ events.map fun e => (some i, e) := rfl

theorem step_conn (h : w.step (.conn i input) = some w') :
    ∃ place events, Move w.stop w.clock (w.conns i) place events ∧ w' = w.moved i place events := by
  obtain ⟨⟨place, events⟩, hadvance, rfl⟩ := Option.map_eq_some_iff.mp h
  exact ⟨place, events, .of_advance hadvance, rfl⟩

theorem step_tick (h : w.step (.tick now) = some w') :
    w.clock ≤ now ∧ w' = { w with clock := now } := by
  have htick : (if w.clock ≤ now then some { w with clock := now } else none) = some w' := h
  by_cases hle : w.clock ≤ now
  · rw [if_pos hle] at htick
    exact ⟨hle, (Option.some.inj htick).symm⟩
  · rw [if_neg hle] at htick
    cases htick

/-- What holds of every connection and what it has said still does, if it does of the one
that has moved. -/
theorem each_moved {P : ConnId → Place Req Body → List (Event Req Body) → Prop}
    {conns : ConnId → Place Req Body} {log : List (Option ConnId × Event Req Body)}
    {events : List (Event Req Body)} (h : ∀ j, P j (conns j) (History.of (some j) log))
    (hnew : P i place (History.of (some i) log ++ events)) (j : ConnId) :
    P j (Function.update conns i place j)
      (History.of (some j) (log ++ events.map fun e => (some i, e))) := by
  by_cases hji : j = i
  · subst hji
    rw [Function.update_self, History.of_append_self]
    exact hnew
  · rw [Function.update_of_ne hji, History.of_append_ne (by simpa using hji)]
    exact h j

/-- What is done to the stop channel no connection says. -/
theorem of_signalled (log : List (Option ConnId × Event Req Body)) (e : Event Req Body)
    (j : ConnId) : History.of (some j) (log ++ [(none, e)]) = History.of (some j) log :=
  History.of_append_ne (by simp) log [e]

/-- **The invariant rule of the connections.**  What is done to the stop channel goes into
the log under no name. -/
theorem handle_invariant {I : World Req Body → Prop} (hstart : ∀ clock, I (.start clock))
    (hmove : ∀ {w : World Req Body} {i place events}, I w →
      Move w.stop w.clock (w.conns i) place events → I (w.moved i place events))
    (hraise : ∀ {w : World Req Body}, I w → I { w with
      stop := { w.stop with value := true }, log := w.log ++ [(none, .raised)] })
    (hdrop : ∀ {w : World Req Body}, I w → I { w with
      stop := { w.stop with closed := true }, log := w.log ++ [(none, .dropped)] })
    (htick : ∀ {w : World Req Body} now, I w → I { w with clock := now })
    (h : (handleMachine Req Body).Reachable w) : I w := by
  refine h.invariant (fun w ⟨clock, hw⟩ => hw ▸ hstart clock) ?_
  intro w w' a _ hI hstep
  cases a with
  | conn i input =>
      obtain ⟨place, events, hm, rfl⟩ := step_conn hstep
      exact hmove hI hm
  | raise =>
      obtain rfl := Option.some.inj hstep
      exact hraise hI
  | drop =>
      obtain rfl := Option.some.inj hstep
      exact hdrop hI
  | tick now =>
      obtain ⟨-, rfl⟩ := step_tick hstep
      exact htick now hI

/-! ### Exchanges -/

/-- What a client is to be told of an outcome: the response there is, or of a failure
whether it is one of the extension, and no more. -/
inductive Responds : Except AgentError (Response Body) → Response Body → Prop
  | answered (res : Response Body) : Responds (.ok res) res
  | extensionFailure : Responds (.error .extensionFailure) .extensionFailure
  | failure {error : AgentError} (h : error ≠ .extensionFailure) : Responds (.error error) .failure

theorem responds_responseOf (outcome : Except AgentError (Response Body)) :
    Responds outcome (responseOf outcome) := by
  rcases outcome with error | res
  · cases error with
    | extensionFailure => exact .extensionFailure
    | _ => exact .failure (by simp)
  · exact .answered res

/-- A request that has been answered. -/
structure Exchange (Req Body : Type*) where
  req : Req
  deadline : Instant
  outcome : Except AgentError (Response Body)
  res : Response Body
  responds : Responds outcome res

def Exchange.events (x : Exchange Req Body) : List (Event Req Body) :=
  [.decoded x.req x.deadline, .handled x.outcome, .sent x.res]

/-- What is left of a history without the polls that found nothing. -/
def Event.isPoll : Event Req Body → Bool
  | .polled | .pending => true
  | _ => false

def visible (l : List (Event Req Body)) : List (Event Req Body) := l.filter fun e => !e.isPoll

/-- What has happened since the last exchange, by where the connection stands. -/
inductive Tail : Place Req Body → List (Event Req Body) → Prop
  | top : Tail .top []
  | select : Tail .select []
  | wire : Tail .wire []
  | handling (req : Req) (deadline : Instant) :
      Tail (.handling req deadline) [.decoded req deadline]
  | sending (req : Req) (deadline : Instant) {outcome : Except AgentError (Response Body)}
      {res : Response Body} (h : Responds outcome res) :
      Tail (.sending res deadline) [.decoded req deadline, .handled outcome]
  | stopped : Tail (.closed (.ok ())) [.stopped]
  | disconnected : Tail (.closed (.ok ())) [.disconnected]
  | undecodable (error : AgentError) : Tail (.closed (.error error)) [.undecodable error]
  | timedOut (req : Req) (deadline : Instant) :
      Tail (.closed (.error elapsedError)) [.decoded req deadline, .timedOut]
  | timedOutSending (req : Req) (deadline : Instant)
      (outcome : Except AgentError (Response Body)) :
      Tail (.closed (.error elapsedError))
        [.decoded req deadline, .handled outcome, .timedOut]
  | unsent (req : Req) (deadline : Instant) (outcome : Except AgentError (Response Body))
      (error : AgentError) :
      Tail (.closed (.error error)) [.decoded req deadline, .handled outcome, .unsent error]

/-- A history of exchanges with a tail. -/
def Served (place : Place Req Body) (l : List (Event Req Body)) : Prop :=
  ∃ (exchanges : List (Exchange Req Body)) (tail : List (Event Req Body)),
    visible l = exchanges.flatMap Exchange.events ++ tail ∧ Tail place tail

/-- A step lengthens the tail, unless it completes an exchange. -/
theorem Served.moved {l events : List (Event Req Body)} (h : Served place l)
    (hm : Move stop now place place' events) : Served place' (l ++ events) := by
  obtain ⟨exchanges, tail, hl, htail⟩ := h
  have hvisible : visible (l ++ events) =
      exchanges.flatMap Exchange.events ++ (tail ++ visible events) := by
    rw [visible, List.filter_append, ← visible, hl, List.append_assoc]
    rfl
  cases hm with
  | enter h =>
      cases htail
      exact ⟨exchanges, _, hvisible, .select⟩
  | stopped hplace h =>
      refine ⟨exchanges, _, hvisible, ?_⟩
      cases hplace with
      | top => cases htail; exact .stopped
      | select => cases htail; exact .stopped
  | polled h =>
      cases htail
      exact ⟨exchanges, _, hvisible, .wire⟩
  | pending =>
      cases htail
      exact ⟨exchanges, _, hvisible, .select⟩
  | decoded req =>
      cases htail
      exact ⟨exchanges, _, hvisible, .handling _ _⟩
  | disconnected =>
      cases htail
      exact ⟨exchanges, _, hvisible, .disconnected⟩
  | undecodable error =>
      cases htail
      exact ⟨exchanges, _, hvisible, .undecodable _⟩
  | handled req deadline outcome =>
      cases htail
      exact ⟨exchanges, _, hvisible, .sending _ _ (responds_responseOf outcome)⟩
  | sent res deadline =>
      cases htail with
      | @sending req _ outcome _ hresponds =>
          refine ⟨exchanges ++ [⟨req, deadline, outcome, res, hresponds⟩], [], ?_, .top⟩
          rw [hvisible]
          simp [visible, Event.isPoll, Exchange.events]
  | unsent res deadline error =>
      cases htail
      exact ⟨exchanges, _, hvisible, .unsent _ _ _ _⟩
  | timedOut hplace h =>
      refine ⟨exchanges, _, hvisible, ?_⟩
      cases htail with
      | handling req deadline => exact .timedOut _ _
      | sending req deadline hresponds => exact .timedOutSending _ _ _
      | _ => cases hplace

/-- **Every connection answers its requests in order, one response each.** -/
theorem conn_served (h : (handleMachine Req Body).Reachable w) (i : ConnId) :
    Served (w.conns i) (History.of (some i) w.log) := by
  refine handle_invariant
    (I := fun w => ∀ i, Served (w.conns i) (History.of (some i) w.log))
    (fun _ _ => ⟨[], [], rfl, .top⟩) ?_ ?_ ?_ (fun _ hI => hI) h i
  · intro w i place events hI hm
    exact each_moved (P := fun _ => Served) hI ((hI i).moved hm)
  · intro w hI j
    rw [of_signalled]
    exact hI j
  · intro w hI j
    rw [of_signalled]
    exact hI j

end Keyring.Cli.Handle
