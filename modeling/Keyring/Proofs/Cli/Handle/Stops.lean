/-
How a connection ends, and what it still does once the stop is raised.

A place is worth the responses and the requests that a connection standing there can still
come to without looking at the stop again: one response where a request is in progress or
the wire is about to be polled, one request in the latter place only.  The last thing a
connection said tells what its place is worth.  With the stop raised no step raises that
worth, and a request or a response uses it up.
-/
import Keyring.Proofs.Cli.Handle.Exchanges

namespace Keyring.Cli.Handle

open Keyring.Service (AgentError)
open History

variable {Req Body : Type*} {stop : Watch} {now : Instant} {place place' : Place Req Body}
  {input : Input Req Body} {events l : List (Event Req Body)} {w w' : World Req Body}
  {i j : ConnId}

/-! ### What is read off an event -/

def Event.isPolled : Event Req Body → Bool
  | .polled => true
  | _ => false

def Event.isDecoded : Event Req Body → Bool
  | .decoded _ _ => true
  | _ => false

def Event.isSent : Event Req Body → Bool
  | .sent _ => true
  | _ => false

/-- A connection that says this is closed. -/
def Event.isFinal : Event Req Body → Bool
  | .stopped | .disconnected | .undecodable _ | .unsent _ | .timedOut => true
  | _ => false

/-- How many responses may follow, by what was said last. -/
def responsesOwed : Option (Event Req Body) → Nat
  | some .polled | some (.decoded _ _) | some (.handled _) => 1
  | _ => 0

/-- How many requests may follow, by what was said last. -/
def requestsOwed : Option (Event Req Body) → Nat
  | some .polled => 1
  | _ => 0

/-- What is said after the stop, by what was said last before it. -/
structure Winding (last : Option (Event Req Body)) (l : List (Event Req Body)) : Prop where
  /-- The response to the request in progress, or to one that the wire yields to a `select!`
  that had found no stop. -/
  sent : l.countP Event.isSent ≤ responsesOwed last
  /-- The latter request. -/
  decoded : l.countP Event.isDecoded ≤ requestsOwed last
  /-- A stop that is looked for is found. -/
  polled : l.countP Event.isPolled = 0

/-! ### What a place is worth -/

def Place.responses : Place Req Body → Nat
  | .wire | .handling _ _ | .sending _ _ => 1
  | _ => 0

def Place.requests : Place Req Body → Nat
  | .wire => 1
  | _ => 0

/-- What is said at a place is worth what the place is. -/
structure Standing (place : Place Req Body) (last : Option (Event Req Body)) : Prop where
  responses : place.responses = responsesOwed last
  requests : place.requests = requestsOwed last

/-- Something was said on the way to a place, within these limits for it and for what may
still be said there. -/
structure Within (responses requests : Nat) (l : List (Event Req Body))
    (place : Place Req Body) : Prop where
  sent : l.countP Event.isSent + place.responses ≤ responses
  decoded : l.countP Event.isDecoded + place.requests ≤ requests
  polled : l.countP Event.isPolled = 0

theorem Within.append {responses requests : Nat} (h : Within responses requests l place)
    (hnew : Within place.responses place.requests events place') :
    Within responses requests (l ++ events) place' where
  sent := by
    rw [List.countP_append]
    have hold := h.sent
    have hsent := hnew.sent
    omega
  decoded := by
    rw [List.countP_append]
    have hold := h.decoded
    have hdecoded := hnew.decoded
    omega
  polled := by rw [List.countP_append, h.polled, hnew.polled]

theorem Within.winding {last : Option (Event Req Body)}
    (h : Within (responsesOwed last) (requestsOwed last) l place) : Winding last l where
  sent := (Nat.le_add_right _ _).trans h.sent
  decoded := (Nat.le_add_right _ _).trans h.decoded
  polled := h.polled

theorem Standing.within {last : Option (Event Req Body)} (h : Standing place last) :
    Within (responsesOwed last) (requestsOwed last) [] place where
  sent := by simp [h.responses]
  decoded := by simp [h.requests]
  polled := rfl

/-! ### One step -/

theorem Move.length_le (h : Move stop now place place' events) : events.length ≤ 1 := by
  cases h <;> simp

/-- What is said tells what the new place is worth. -/
theorem Move.standing (h : Move stop now place place' events) {last : Option (Event Req Body)}
    (hplace : Standing place last) : Standing place' (events.getLast?.or last) := by
  cases h with
  | enter => exact ⟨hplace.responses, hplace.requests⟩
  | _ => exact ⟨rfl, rfl⟩

/-- **With the stop raised, what is said uses up what the place is worth.** -/
theorem Move.within (h : Move stop now place place' events) (hstop : stop.value = true) :
    Within place.responses place.requests events place' := by
  cases h with
  | enter hvalue => exact absurd hvalue (by simp [hstop])
  | polled hchanged => exact absurd hchanged (by simp [Watch.changed, hstop])
  | decoded | handled | sent => exact ⟨Nat.le_refl _, Nat.le_refl _, rfl⟩
  | _ => exact ⟨Nat.zero_le _, Nat.zero_le _, rfl⟩

/-- A closed connection takes no step. -/
theorem Move.not_closed {result : Except AgentError Unit}
    (h : Move stop now (.closed result) place' events) : False := by
  cases h with
  | stopped hplace => cases hplace
  | timedOut hplace => cases hplace

/-- Who says a final thing is closed. -/
theorem Move.closed (h : Move stop now place place' events) {e : Event Req Body}
    (he : e ∈ events) (hfinal : e.isFinal = true) : ∃ result, place' = .closed result := by
  cases h with
  | stopped | disconnected | undecodable | unsent | timedOut => exact ⟨_, rfl⟩
  | enter => cases he
  | _ => rw [List.mem_singleton.mp he] at hfinal; cases hfinal

/-! ### The final word -/

/-- Nothing follows a final word, and who said it is closed. -/
def Final (place : Place Req Body) (l : List (Event Req Body)) : Prop :=
  ∀ pre e post, l = pre ++ e :: post → e.isFinal = true →
    post = [] ∧ ∃ result, place = .closed result

theorem Final.moved (h : Final place l) (hm : Move stop now place place' events) :
    Final place' (l ++ events) := by
  intro pre e post hl hfinal
  rcases append_split_one hl hm.length_le with ⟨mid, hmid, rfl⟩ | ⟨-, rfl, rfl⟩
  · obtain ⟨-, result, rfl⟩ := h pre e mid hmid hfinal
    exact hm.not_closed.elim
  · exact ⟨rfl, hm.closed (List.mem_singleton_self e) hfinal⟩

/-! ### All runs -/

/-- Where every connection stands, and what each has said since the stop was raised. -/
structure StopInv (w : World Req Body) : Prop where
  final : ∀ i, Final (w.conns i) (of (some i) w.log)
  standing : ∀ i, Standing (w.conns i) (of (some i) w.log).getLast?
  raised : ∀ pre post, w.log = pre ++ (none, .raised) :: post → w.stop.value = true ∧
    ∀ i, Within (responsesOwed (of (some i) pre).getLast?) (requestsOwed (of (some i) pre).getLast?)
      (of (some i) post) (w.conns i)

theorem StopInv.start (clock : Instant) : StopInv (World.start clock : World Req Body) where
  final := by
    intro i pre e post hl
    exact absurd hl (by simp [World.start, of])
  standing := fun _ => ⟨rfl, rfl⟩
  raised := by
    intro pre post hl
    exact absurd hl (by simp [World.start])

theorem StopInv.moved (h : StopInv w) (hm : Move w.stop w.clock (w.conns i) place events) :
    StopInv (w.moved i place events) where
  final := each_moved (P := fun _ => Final) h.final ((h.final i).moved hm)
  standing := by
    refine each_moved (P := fun _ place l => Standing place l.getLast?) h.standing ?_
    rw [List.getLast?_append]
    exact hm.standing (h.standing i)
  raised := by
    intro pre post hl
    rw [moved_log] at hl
    rcases append_split hl with ⟨mid, hmid, rfl⟩ | ⟨mid, -, hmid⟩
    · obtain ⟨hstop, hwithin⟩ := h.raised pre mid hmid
      exact ⟨hstop, each_moved
        (P := fun j place l => Within (responsesOwed (of (some j) pre).getLast?)
          (requestsOwed (of (some j) pre).getLast?) l place)
        hwithin ((hwithin i).append (hm.within hstop))⟩
    · -- A connection puts its own name to what it says.
      have hmem : (none, Event.raised) ∈ events.map fun e => (some i, e) := by
        rw [hmid]
        exact List.mem_append_right _ (List.mem_cons_self ..)
      obtain ⟨e, -, he⟩ := List.mem_map.mp hmem
      cases he

/-- What is done to the stop channel leaves every connection where it stands. -/
theorem StopInv.signalled {stop : Watch} {e : Event Req Body} (h : StopInv w)
    (hstop : w.stop.value = true → stop.value = true)
    (hraised : e = .raised → stop.value = true) :
    StopInv { w with stop := stop, log := w.log ++ [(none, e)] } := by
  refine ⟨?_, ?_, ?_⟩
  · intro j
    rw [of_signalled]
    exact h.final j
  · intro j
    rw [of_signalled]
    exact h.standing j
  · intro pre post hl
    rcases append_split_one hl (Nat.le_refl 1) with ⟨mid, hmid, rfl⟩ | ⟨rfl, he, rfl⟩
    · obtain ⟨hvalue, hwithin⟩ := h.raised pre mid hmid
      refine ⟨hstop hvalue, fun j => ?_⟩
      rw [of_signalled]
      exact hwithin j
    · obtain rfl : e = .raised := by simpa using he
      exact ⟨hraised rfl, fun j => (h.standing j).within⟩

theorem stopInv_of_reachable (h : (handleMachine Req Body).Reachable w) : StopInv w := by
  refine handle_invariant StopInv.start ?_ ?_ ?_ ?_ h
  · intro w i place events hI hm
    exact hI.moved hm
  · intro w hI
    exact hI.signalled (fun _ => rfl) fun _ => rfl
  · intro w hI
    exact hI.signalled (fun hvalue => hvalue) fun he => by cases he
  · intro w now hI
    exact ⟨hI.final, hI.standing, hI.raised⟩

/-! ### What is promised of a connection -/

/-- What one connection does is nothing to the others. -/
def Alone (w : World Req Body) (i : ConnId) : Prop :=
  ∀ input w', w.step (.conn i input) = some w' →
    w'.stop = w.stop ∧ w'.clock = w.clock ∧
      ∀ j ≠ i, w'.conns j = w.conns j ∧ of (some j) w'.log = of (some j) w.log

theorem step_alone (w : World Req Body) (i : ConnId) : Alone w i := by
  intro input w' hstep
  obtain ⟨place, events, -, rfl⟩ := step_conn hstep
  refine ⟨rfl, rfl, fun j hji => ⟨?_, ?_⟩⟩
  · rw [moved_conns, Function.update_of_ne hji]
  · rw [moved_log, of_append_ne (by simpa using hji)]

/-- A connection, at one point of a run. -/
structure Serving (w : World Req Body) (i : ConnId) : Prop where
  /-- Its history is a row of exchanges and a tail. -/
  served : Served (w.conns i) (of (some i) w.log)
  /-- A request timeout, an error of the wire and a stop are final. -/
  final : Final (w.conns i) (of (some i) w.log)
  alone : Alone w i
  /-- Once the stop is raised, there is little to come. -/
  winding : ∀ pre post, w.log = pre ++ (none, .raised) :: post →
    Winding (of (some i) pre).getLast? (of (some i) post)

/-- **A connection answers its requests in order, failures included, until it ends; and
after a stop it answers one more at most.** -/
theorem conn_serving (h : (handleMachine Req Body).Reachable w) (i : ConnId) :
    Serving w i where
  served := conn_served h i
  final := (stopInv_of_reachable h).final i
  alone := step_alone w i
  winding := fun pre post hl => (((stopInv_of_reachable h).raised pre post hl).2 i).winding

/-- What one request takes on the wire, from the head of the loop. -/
def asked (outcome : Except AgentError (Response Unit)) : List (Action Unit Unit) :=
  [.conn 0 .go, .conn 0 .go, .conn 0 (.frame (.ok (some ()))), .conn 0 (.handled outcome),
    .conn 0 (.sent (.ok ()))]

/-- Two failures, and a stop raised between the two polls of the next `select!`. -/
def lateRun : List (Action Unit Unit) :=
  asked (.error .extensionFailure) ++ asked (.error (.other "no such key")) ++
    [.conn 0 .go, .conn 0 .go, .raise, .conn 0 (.frame (.ok (some ()))),
      .conn 0 (.handled (.ok (.body ()))), .conn 0 (.sent (.ok ())), .conn 0 .go]

def Event.response? : Event Req Body → Option (Response Body)
  | .sent res => some res
  | _ => none

/-- Each failure is told as what it is, and the request taken from the wire after the stop is
answered too. -/
theorem conn_serving_late : ∃ w : World Unit Unit,
    (of (some 0) w.log).filterMap Event.response? = [.extensionFailure, .failure, .body ()] ∧
      w.stop.value = true ∧ Serving w 0 := by
  obtain ⟨w, hw, hp⟩ := @Machine.reachable_of_exec_any _ _
    (fun w => ∃ clock, w = World.start clock) World.step (World.start 0) ⟨0, rfl⟩ lateRun
    (fun w => decide ((of (some 0) w.log).filterMap Event.response? =
      [.extensionFailure, .failure, .body ()]) && w.stop.value) (by decide)
  obtain ⟨hsent, hstop⟩ := (Bool.and_eq_true _ _).mp hp
  exact ⟨w, of_decide_eq_true hsent, hstop, conn_serving hw 0⟩

end Keyring.Cli.Handle
