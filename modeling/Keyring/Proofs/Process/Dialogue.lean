/-
One connection, on the wire and in its session.

While the task of a connection runs, where it stands on the wire tells what its session is
doing: `Wired`.  A request is with the session exactly while it is handled, a response is
that of the last exchange, and between requests both have done the same.  When the task
ends, by itself or not, this leaves a `Dialogue`: what was sent are the session's answers,
one for each request that it was asked and in their order, and at most the last one was
never sent.
-/
import Keyring.Proofs.Process.Moves

namespace Keyring.Process

open Keyring.Service Keyring.Cli

/-! ### Exchanges -/

section

variable {keys : SshKeys}

/-- The response a client is to get for what its session has answered. -/
inductive Sends : Reply keys → Handle.Response (Reply keys) → Prop
  | identities (list : List (AgentIdentity keys)) :
      Sends (.identities list) (.body (.identities list))
  | signature (signature : Signature) : Sends (.signature signature) (.body (.signature signature))
  | extension (ext : Option Extension) : Sends (.extension ext) (.body (.extension ext))
  | extensionFailure : Sends (.error .extensionFailure) .extensionFailure
  | failure {error : AgentError} (h : error ≠ .extensionFailure) : Sends (.error error) .failure

theorem Sends.of_outcome {reply : Reply keys}
    {outcome : Except AgentError (Handle.Response (Reply keys))}
    {res : Handle.Response (Reply keys)} (houtcome : outcomeOf reply = some outcome)
    (h : Handle.Responds outcome res) : Sends reply res := by
  cases reply with
  | panicked => cases houtcome
  | error error =>
      obtain rfl := Option.some.inj houtcome
      cases h with
      | extensionFailure => exact .extensionFailure
      | failure herror => exact .failure herror
  | identities list =>
      obtain rfl := Option.some.inj houtcome
      cases h
      exact .identities list
  | signature signature =>
      obtain rfl := Option.some.inj houtcome
      cases h
      exact .signature signature
  | extension ext =>
      obtain rfl := Option.some.inj houtcome
      cases h
      exact .extension ext

/-- The exchanges on the wire are those of the session, but for requests it is not asked. -/
inductive Matches : List (Handle.Exchange (Message keys) (Reply keys)) →
    List (Service.Exchange keys) → Prop
  | nil : Matches [] []
  | answered {wire : List (Handle.Exchange (Message keys) (Reply keys))}
      {exchanges : List (Service.Exchange keys)} (h : Matches wire exchanges)
      {e : Handle.Exchange (Message keys) (Reply keys)} {x : Service.Exchange keys}
      (hreq : e.req = .request x.request) (hsends : Sends x.reply e.res) :
      Matches (wire ++ [e]) (exchanges ++ [x])
  | refused {wire : List (Handle.Exchange (Message keys) (Reply keys))}
      {exchanges : List (Service.Exchange keys)} (h : Matches wire exchanges)
      {e : Handle.Exchange (Message keys) (Reply keys)} (command : Nat)
      (hreq : e.req = .other command) (hres : e.res = .failure) : Matches (wire ++ [e]) exchanges

/-- What may come after the last response: the end, perhaps of a request that was not
answered, and if that one was served, what became of it. -/
structure Unanswered (tail : List (Handle.Event (Message keys) (Reply keys)))
    (rest : List (Service.Exchange keys)) : Prop where
  unsent : ∀ res, .sent res ∉ tail
  rest : rest = [] ∨ ∃ x deadline later, rest = [x] ∧
    tail = .decoded (.request x.request) deadline :: later

/-- What a connection has said is what its session has answered. -/
def Dialogue (said : List (Handle.Event (Message keys) (Reply keys)))
    (exchanges : List (Service.Exchange keys)) : Prop :=
  ∃ wire tail served rest, said = wire.flatMap Handle.Exchange.events ++ tail ∧
    exchanges = served ++ rest ∧ Matches wire served ∧ Unanswered tail rest

end

/-! ### Both sides of a connection -/

section

variable {keys : SshKeys} {ι : Type} {P : ι → Core.KeyPairProvider keys}

/-- The session is loading for a request, or has served it. -/
inductive Serving (request : Request keys) (exchanges : List (Service.Exchange keys)) :
    Conn keys ι → Prop
  | loading (session : OpenSession keys ι) (given : List (List keys.PrivateKey))
      (out : KeyIndex keys) (p : ι) (call : Core.CallId) (rest : List ι) :
      Serving request exchanges ⟨session, .loading request given out p call rest, exchanges⟩
  | served (session : OpenSession keys ι) (x : Service.Exchange keys) (hx : x.request = request) :
      Serving request exchanges ⟨session, .idle, exchanges ++ [x]⟩

/-- Where no request is in progress. -/
inductive Between : Handle.Place (Message keys) (Reply keys) → Prop
  | top : Between .top
  | select : Between .select
  | wire : Between .wire

/-- How the two sides of a running connection stand to each other. -/
inductive Wired (said : List (Handle.Event (Message keys) (Reply keys))) (conn : Conn keys ι) :
    Handle.Place (Message keys) (Reply keys) → Prop
  | between {place : Handle.Place (Message keys) (Reply keys)}
      {wire : List (Handle.Exchange (Message keys) (Reply keys))} (hplace : Between place)
      (hsaid : said = wire.flatMap Handle.Exchange.events)
      (hmatches : Matches wire conn.exchanges) (hidle : conn.place = .idle) :
      Wired said conn place
  | refusing {wire : List (Handle.Exchange (Message keys) (Reply keys))} {command : Nat}
      {deadline : Instant}
      (hsaid : said = wire.flatMap Handle.Exchange.events ++ [.decoded (.other command) deadline])
      (hmatches : Matches wire conn.exchanges) (hidle : conn.place = .idle) :
      Wired said conn (.handling (.other command) deadline)
  | serving {wire : List (Handle.Exchange (Message keys) (Reply keys))}
      {exchanges : List (Service.Exchange keys)} {request : Request keys} {deadline : Instant}
      (hsaid : said = wire.flatMap Handle.Exchange.events ++ [.decoded (.request request) deadline])
      (hmatches : Matches wire exchanges) (hserving : Serving request exchanges conn) :
      Wired said conn (.handling (.request request) deadline)
  | sending {wire : List (Handle.Exchange (Message keys) (Reply keys))} {req : Message keys}
      {deadline : Instant} {outcome : Except AgentError (Handle.Response (Reply keys))}
      {res : Handle.Response (Reply keys)} (hresponds : Handle.Responds outcome res)
      (hsaid : said = wire.flatMap Handle.Exchange.events ++
        [.decoded req deadline, .handled outcome])
      (hmatches : Matches (wire ++ [⟨req, deadline, outcome, res, hresponds⟩]) conn.exchanges)
      (hidle : conn.place = .idle) :
      Wired said conn (.sending res deadline)

/-- A connection with its task, which runs until the connection is closed. -/
inductive JobOk (d : Drain.World (Provider keys) (Message keys) (Reply keys)) (job : Nat)
    (conn : Conn keys ι) : Prop
  | live (hrunning : d.serve.service.jobs.Running job)
      (hwired : Wired (Handle.visible (Drain.wire job d.log)) conn (d.conns job))
  | ended (hended : ¬d.serve.service.jobs.Running job) (hclosed : conn.place = .closed)
      (hdialogue : Dialogue (Handle.visible (Drain.wire job d.log)) conn.exchanges)

end

/-! ### What a session does -/

section

variable {keys : SshKeys} {ι : Type} [DecidableEq ι] {P : ι → Core.KeyPairProvider keys}
  {proto : AgentProto} {members : ServiceAgent ι} {world world' : Service.World P} {job : Nat}
  {conn : Conn keys ι} {request : Request keys}

/-- A request that is asked, or has waited for a provider. -/
inductive Asked (job : Nat) (request : Request keys) (conn : Conn keys ι) :
    Service.Action P → Prop
  | first (hidle : conn.place = .idle) : Asked job request conn (.request job request)
  | again {given : List (List keys.PrivateKey)} {out : KeyIndex keys} {p : ι}
      {call : Core.CallId} {rest : List ι}
      (hplace : conn.place = .loading request given out p call rest) :
      Asked job request conn (.resume job)

/-- The request goes on to be served. -/
theorem serving_of_step {a : Service.Action P} (h : ConnStep proto members world job a world')
    (hconn : world.conns job = some conn) (hasked : Asked job request conn a) :
    ∃ conn', world'.conns job = some conn' ∧ Serving request conn.exchanges conn' := by
  cases h with
  | replied hconn' hkeys =>
      obtain rfl := Option.some.inj (hconn.symm.trans hconn')
      cases hasked
      exact ⟨_, withConn_self .., .served _ _ rfl⟩
  | @called _ _ _ given out p rest state hconn' hhead hload =>
      obtain rfl := Option.some.inj (hconn.symm.trans hconn')
      refine ⟨_, withConn_self .., ?_⟩
      generalize p :: rest = members at hhead
      cases hhead with
      | first hneeds hkeys =>
          cases hasked
          exact .loading ..
      | next hstatus =>
          cases hasked with
          | again hplace =>
              obtain ⟨rfl, -⟩ := Place.loading.inj hplace
              exact .loading ..
  | loaded hconn' hhead =>
      obtain rfl := Option.some.inj (hconn.symm.trans hconn')
      refine ⟨_, withConn_self .., ?_⟩
      generalize ([] : List ι) = members at hhead
      cases hhead with
      | first hneeds hkeys =>
          cases hasked
          exact .served _ _ rfl
      | next hstatus =>
          cases hasked with
          | again hplace =>
              obtain ⟨rfl, -⟩ := Place.loading.inj hplace
              exact .served _ _ rfl
  | failed hconn' hstatus =>
      obtain rfl := Option.some.inj (hconn.symm.trans hconn')
      cases hasked with
      | again hplace =>
          obtain ⟨rfl, -⟩ := Place.loading.inj hplace
          exact ⟨_, withConn_self .., .served _ _ rfl⟩
  | accepted | dropped | unwound | closed => cases hasked

/-- Nobody resumes a session that waits for nothing. -/
theorem resume_idle (hconn : world.conns job = some conn) (hidle : conn.place = .idle) :
    world.resume proto job = none := by
  obtain ⟨session, place, exchanges⟩ := conn
  obtain rfl : place = .idle := hidle
  rw [Service.World.resume, hconn]

/-- A session that is left is closed, and keeps what it has done. -/
theorem closed_of_leave (hconn : world.conns job = some conn)
    (h : leave world job = some world' ∨ world.unwind job = some world') :
    world'.conns job = some { conn with place := .closed } := by
  obtain ⟨session, place, exchanges⟩ := conn
  unfold leave Service.World.close Service.World.drop Service.World.unwind at h
  rw [hconn] at h
  cases place with
  | idle =>
      rcases h with h | h
      · obtain rfl := Option.some.inj h
        exact withConn_self ..
      · cases h
  | closed => rcases h with h | h <;> cases h
  | loading request given out p call rest =>
      rcases h with h | h
      · obtain ⟨state, hdrop, rfl⟩ := Option.map_eq_some_iff.mp h
        exact withConn_self ..
      · simp only at h
        split at h
        · obtain rfl := Option.some.inj h
          exact withConn_self ..
        · cases h

/-- Nobody else notices. -/
theorem others_of_leave (proto : AgentProto) (members : ServiceAgent ι) {i : Nat} (hne : i ≠ job)
    (h : leave world job = some world' ∨ world.unwind job = some world') :
    world'.conns i = world.conns i := by
  have hdropped : world.drop job = some world' → world'.conns i = world.conns i := by
    intro h
    have hstep : ConnStep proto members world job (.drop job) world' := drop_step h
    exact hstep.others hne
  rcases h with h | h
  · unfold leave at h
    split at h
    · rename_i session exchanges hconn
      rw [Service.World.close, hconn] at h
      obtain rfl := Option.some.inj h
      exact withConn_of_ne _ _ hne
    · exact hdropped h
  · have hstep : ConnStep proto members world job (.unwind job) world' := unwind_step h
    exact hstep.others hne

theorem others_of_follow (members : ServiceAgent ι) {i : Nat} (hne : i ≠ job)
    {place : Handle.Place (Message keys) (Reply keys)}
    (h : follow proto world job place = some world') : world'.conns i = world.conns i := by
  unfold follow at h
  split at h
  · rename_i request deadline
    have hstep : ConnStep proto members world job (.request job request) world' := request_step h
    exact hstep.others hne
  · exact others_of_leave proto members hne (Or.inl h)
  · obtain rfl := Option.some.inj h
    rfl

/-! ### What a connection does -/

section

variable {said events : List (Handle.Event (Message keys) (Reply keys))}
  {place place' : Handle.Place (Message keys) (Reply keys)} {stop : Handle.Watch} {now : Instant}

/-- The two sides go on together. -/
theorem Wired.moved (members : ServiceAgent ι) (h : Wired said conn place)
    (hmove : Handle.Move stop now place place' events)
    (hopen : 0 < place'.rank) (hsending : ∀ res deadline, place' ≠ .sending res deadline)
    (hconn : world.conns job = some conn) (hfollow : follow proto world job place' = some world') :
    ∃ conn', world'.conns job = some conn' ∧ Wired (said ++ Handle.visible events) conn' place' := by
  cases hmove with
  | enter hvalue =>
      cases h with
      | between hplace hsaid hmatches hidle =>
          obtain rfl := Option.some.inj hfollow
          exact ⟨conn, hconn, .between .select (by rw [hsaid]; exact List.append_nil _) hmatches
            hidle⟩
  | polled hchanged =>
      cases h with
      | between hplace hsaid hmatches hidle =>
          obtain rfl := Option.some.inj hfollow
          exact ⟨conn, hconn, .between .wire (by rw [hsaid]; exact List.append_nil _) hmatches
            hidle⟩
  | pending =>
      cases h with
      | between hplace hsaid hmatches hidle =>
          obtain rfl := Option.some.inj hfollow
          exact ⟨conn, hconn, .between .select (by rw [hsaid]; exact List.append_nil _) hmatches
            hidle⟩
  | decoded req =>
      cases h with
      | between hplace hsaid hmatches hidle =>
          cases req with
          | request request =>
              have hstep : ConnStep proto members world job (.request job request) world' :=
                request_step hfollow
              obtain ⟨conn', hconn', hserving⟩ := serving_of_step hstep hconn (.first hidle)
              exact ⟨conn', hconn', .serving (by rw [hsaid]; rfl) hmatches hserving⟩
          | other command =>
              obtain rfl := Option.some.inj hfollow
              exact ⟨conn, hconn, .refusing (by rw [hsaid]; rfl) hmatches hidle⟩
  | sent res deadline =>
      cases h with
      | between hplace => cases hplace
      | sending hresponds hsaid hmatches hidle =>
          obtain rfl := Option.some.inj hfollow
          refine ⟨conn, hconn, .between .top ?_ hmatches hidle⟩
          rw [hsaid, List.flatMap_append, List.append_assoc]
          rfl
  | handled req deadline outcome => exact absurd rfl (hsending _ _)
  | stopped | disconnected | undecodable | unsent | timedOut => cases hopen

omit [DecidableEq ι] in
/-- What `session.handle` has returned is sent. -/
theorem Wired.handled {req : Message keys} {deadline : Instant} {refusal : String}
    {outcome : Except AgentError (Handle.Response (Reply keys))}
    (h : Wired said conn (.handling req deadline)) (hconn : world.conns job = some conn)
    (hreturned : returned world job refusal (.handling req deadline) = some outcome) :
    Wired (said ++ [.handled outcome]) conn (.sending (Handle.responseOf outcome) deadline) := by
  cases h with
  | between hplace => cases hplace
  | @refusing wire command _ hsaid hmatches hidle =>
      obtain rfl := Option.some.inj hreturned
      refine .sending (Handle.responds_responseOf _) ?_ (hmatches.refused command rfl rfl) hidle
      rw [hsaid, List.append_assoc]
      rfl
  | serving hsaid hmatches hserving =>
      rw [returned, hconn] at hreturned
      cases hserving with
      | loading => cases hreturned
      | served session x hx =>
          have houtcome : outcomeOf x.reply = some outcome := by
            simpa using hreturned
          subst hx
          have hresponds := Handle.responds_responseOf outcome
          refine .sending hresponds ?_ (hmatches.answered rfl (.of_outcome houtcome hresponds)) rfl
          rw [hsaid, List.append_assoc]
          rfl

/-- A session that waited for a provider goes on. -/
theorem Wired.resumed (members : ServiceAgent ι) (h : Wired said conn place)
    (hconn : world.conns job = some conn) (hresume : world.resume proto job = some world') :
    ∃ conn', world'.conns job = some conn' ∧ Wired said conn' place := by
  have hbusy : conn.place ≠ .idle := by
    intro hidle
    rw [resume_idle hconn hidle] at hresume
    cases hresume
  cases h with
  | between hplace hsaid hmatches hidle => exact absurd hidle hbusy
  | refusing hsaid hmatches hidle => exact absurd hidle hbusy
  | sending hresponds hsaid hmatches hidle => exact absurd hidle hbusy
  | serving hsaid hmatches hserving =>
      cases hserving with
      | served => exact absurd rfl hbusy
      | loading =>
          have hstep : ConnStep proto members world job (.resume job) world' := resume_step hresume
          obtain ⟨conn', hconn', hserving⟩ := serving_of_step hstep hconn (.again rfl)
          exact ⟨conn', hconn', .serving hsaid hmatches hserving⟩

/-- A connection closes without a response. -/
theorem Closing.unsent (h : Closing place events) (res : Handle.Response (Reply keys)) :
    .sent res ∉ Handle.visible events := by
  rcases h with rfl | ⟨stop, now, place', hclosed, hmove⟩
  · exact List.not_mem_nil
  · cases hmove with
    | stopped | disconnected | undecodable | unsent | timedOut =>
        simp [Handle.visible, Handle.Event.isPoll]
    | enter | polled | pending | decoded | handled | sent => cases hclosed

/-- The last exchange on the wire is the session's last, unless it was not asked. -/
theorem Matches.last {wire : List (Handle.Exchange (Message keys) (Reply keys))}
    {exchanges : List (Service.Exchange keys)} {x : Handle.Exchange (Message keys) (Reply keys)}
    (h : Matches (wire ++ [x]) exchanges) : ∃ served rest, exchanges = served ++ rest ∧
      Matches wire served ∧ (rest = [] ∨ ∃ y, rest = [y] ∧ x.req = .request y.request) := by
  generalize hwire : wire ++ [x] = whole at h
  cases h with
  | nil => exact absurd hwire (by simp)
  | @answered wire' served h e y hreq hsends =>
      obtain ⟨rfl, hx⟩ := List.append_inj' hwire rfl
      obtain rfl := List.singleton_inj.mp hx
      exact ⟨served, [y], rfl, h, Or.inr ⟨y, rfl, hreq⟩⟩
  | refused h command hreq hres =>
      obtain ⟨rfl, hx⟩ := List.append_inj' hwire rfl
      exact ⟨exchanges, [], (List.append_nil _).symm, h, Or.inl rfl⟩

omit [DecidableEq ι] in
/-- Where a connection ends, both sides have said the same. -/
theorem Wired.dialogue (h : Wired said conn place)
    (hclosing : Closing place events) :
    Dialogue (said ++ Handle.visible events) conn.exchanges := by
  have hunsent := hclosing.unsent
  cases h with
  | between hplace hsaid hmatches hidle =>
      exact ⟨_, _, _, [], by rw [hsaid], (List.append_nil _).symm, hmatches, hunsent, Or.inl rfl⟩
  | refusing hsaid hmatches hidle =>
      refine ⟨_, _, _, [], by rw [hsaid, List.append_assoc], (List.append_nil _).symm, hmatches, ?_,
        Or.inl rfl⟩
      simpa using hunsent
  | serving hsaid hmatches hserving =>
      cases hserving with
      | loading =>
          refine ⟨_, _, _, [], by rw [hsaid, List.append_assoc], (List.append_nil _).symm, hmatches,
            ?_, Or.inl rfl⟩
          simpa using hunsent
      | served session x hx =>
          refine ⟨_, _, _, [x], by rw [hsaid, List.append_assoc], rfl, hmatches, ?_,
            Or.inr ⟨x, _, _, rfl, by rw [hx]; rfl⟩⟩
          simpa using hunsent
  | sending hresponds hsaid hmatches hidle =>
      obtain ⟨served, rest, hexchanges, hserved, hrest⟩ := hmatches.last
      refine ⟨_, _, served, rest, by rw [hsaid, List.append_assoc], hexchanges, hserved, ?_, ?_⟩
      · simpa using hunsent
      · rcases hrest with hnone | ⟨y, hone, hreq⟩
        · exact Or.inl hnone
        · exact Or.inr ⟨y, _, _, hone, by rw [← hreq]; rfl⟩

end

/-! ### Tasks -/

section

variable {d d' : Drain.World (Provider keys) (Message keys) (Reply keys)}

theorem visible_append (l l' : List (Handle.Event (Message keys) (Reply keys))) :
    Handle.visible (l ++ l') = Handle.visible l ++ Handle.visible l' := List.filter_append ..

/-- Nobody else has a part in what a connection does. -/
theorem Acts.frame (h : Acts proto d d' job world world') :
    Drain.Frame (some job) d d' ∧ Drain.Brings [] [] d d' := by
  cases h with
  | moved hmove hopen hsending hacted => exact ⟨hacted.frame, hacted.brings⟩
  | handled hplace hreturned hplace' hacted => exact ⟨hacted.frame, hacted.brings⟩
  | resumed hdrain =>
      subst hdrain
      exact ⟨⟨fun _ _ => Iff.rfl, fun _ _ => rfl, fun _ _ => rfl⟩, .none rfl⟩
  | left hclosing hacted => exact ⟨hacted.frame, hacted.brings⟩

theorem Acts.others (members : ServiceAgent ι) (h : Acts proto d d' job world world') {i : Nat}
    (hne : i ≠ job) : world'.conns i = world.conns i := by
  cases h with
  | moved hmove hopen hsending hacted hrunning hfollow => exact others_of_follow members hne hfollow
  | handled => rfl
  | resumed hdrain hresume =>
      have hstep : ConnStep proto members world job (.resume job) world' := resume_step hresume
      exact hstep.others hne
  | left hclosing hacted hended hleave => exact others_of_leave proto members hne hleave

/-- Who acts is as well connected as before. -/
theorem JobOk.acts (members : ServiceAgent ι) (h : JobOk d job conn)
    (hconn : world.conns job = some conn) (hrunning : d.serve.service.jobs.Running job)
    (hacts : Acts proto d d' job world world') :
    ∃ conn', world'.conns job = some conn' ∧ JobOk d' job conn' := by
  cases h with
  | ended hended => exact absurd hrunning hended
  | live _ hwired =>
      cases hacts with
      | moved hmove hopen hsending hacted hrunning' hfollow =>
          obtain ⟨conn', hconn', hwired'⟩ :=
            hwired.moved members hmove hopen hsending hconn hfollow
          refine ⟨conn', hconn', .live hrunning' ?_⟩
          rwa [hacted.wire, visible_append]
      | handled hplace hreturned hplace' hacted hrunning' =>
          rw [hplace] at hwired
          refine ⟨conn, hconn, .live hrunning' ?_⟩
          rw [hplace', hacted.wire, visible_append]
          exact hwired.handled hconn hreturned
      | resumed hdrain hresume =>
          subst hdrain
          obtain ⟨conn', hconn', hwired'⟩ := hwired.resumed members hconn hresume
          exact ⟨conn', hconn', .live hrunning hwired'⟩
      | left hclosing hacted hended hleave =>
          refine ⟨_, closed_of_leave hconn hleave, .ended hended rfl ?_⟩
          rw [hacted.wire, visible_append]
          exact hwired.dialogue hclosing

omit [DecidableEq ι] in
/-- Who does not act is left alone. -/
theorem JobOk.frame {acting : Option Nat} (h : JobOk d job conn)
    (hframe : Drain.Frame acting d d') (hne : some job ≠ acting) : JobOk d' job conn := by
  have hrunning := hframe.running job hne
  cases h with
  | live hrun hwired =>
      refine .live (hrunning.mpr hrun) ?_
      rwa [hframe.wire job hne, hframe.conns job hne]
  | ended hended hclosed hdialogue =>
      refine .ended (fun h => hended (hrunning.mp h)) hclosed ?_
      rwa [hframe.wire job hne]

end

end

end Keyring.Process
