/-
The session-bind records of one connection.

A record is admitted when its id is new and every record so far forwards, so the records
are distinct and only the last can be one that does not forward.  After that one the
connection is bound for authentication, and nothing the client sends binds it again.
-/
import Keyring.Proofs.Service.OneIndex

namespace Keyring.Service

open OpenSession

variable {keys : SshKeys} {Provider : Type*} {proto : AgentProto} {answer : Nat → Answer keys}
  {s : OpenSession keys Provider} {binds : List Bind}

/-! ### Records -/

/-- Whether a connection with these records takes another one. -/
def Admits (binds : List Bind) (id : List UInt8) : Prop :=
  (∀ b ∈ binds, b.id ≠ id) ∧ ∀ b ∈ binds, b.fwd = true

/-- What the records of a connection look like. -/
structure WellBound (binds : List Bind) : Prop where
  distinct : (binds.map Bind.id).Nodup
  forwarding : ∀ b ∈ binds.dropLast, b.fwd = true

theorem wellBound_nil : WellBound [] := ⟨List.nodup_nil, by simp⟩

theorem WellBound.append {b : Bind} (h : WellBound binds) (hb : Admits binds b.id) :
    WellBound (binds ++ [b]) where
  distinct := by
    rw [List.map_append, List.map_singleton]
    refine h.distinct.append (List.nodup_singleton b.id) ?_
    intro id hid hlast
    obtain ⟨b', hb', rfl⟩ := List.mem_map.mp hid
    exact hb.1 b' hb' (List.mem_singleton.mp hlast)
  forwarding := by
    rw [List.dropLast_concat]
    exact hb.2

/-! ### One payload -/

theorem checkBind_eq_some {ext : Extension} {bind : SessionBind} :
    checkBind proto ext = some bind ↔
      proto.parseBind ext = .ok (some bind) ∧ proto.verifySignature bind = .ok () := by
  constructor
  · intro h
    unfold checkBind at h
    cases hparse : proto.parseBind ext with
    | error error => simp [hparse] at h
    | ok parsed =>
        cases parsed with
        | none => simp [hparse] at h
        | some payload =>
            cases hverify : proto.verifySignature payload with
            | error error => simp [hparse, hverify] at h
            | ok _ =>
                obtain rfl : payload = bind := by simpa [hparse, hverify] using h
                exact ⟨rfl, hverify⟩
  · intro h
    simp only [checkBind, h.1, h.2]

/-- The payload of an extension is one that a connection with these records takes. -/
def Acceptable (proto : AgentProto) (binds : List Bind) (ext : Extension) (bind : SessionBind) :
    Prop :=
  proto.parseBind ext = .ok (some bind) ∧ proto.verifySignature bind = .ok () ∧
    Admits binds bind.sessionId

/-- **A session-bind is recorded or refused**, and it is refused without a trace. -/
theorem sessionBind_cases (proto : AgentProto) (s : OpenSession keys Provider) (ext : Extension) :
    (∃ bind, Acceptable proto s.binds ext bind ∧ sessionBind proto s ext =
        ({ s with binds := s.binds ++ [⟨bind.sessionId, bind.isForwarding⟩] }, .extension none)) ∨
      (∀ bind, ¬Acceptable proto s.binds ext bind) ∧
        sessionBind proto s ext = (s, .error .extensionFailure) := by
  unfold sessionBind
  cases hcheck : checkBind proto ext with
  | none =>
      refine Or.inr ⟨fun bind hbind => ?_, rfl⟩
      have hsome := checkBind_eq_some.mpr ⟨hbind.1, hbind.2.1⟩
      rw [hcheck] at hsome
      cases hsome
  | some bind =>
      obtain ⟨hparse, hverify⟩ := checkBind_eq_some.mp hcheck
      -- whatever else the payload might parse as, it is this one
      have hrefused : ¬Admits s.binds bind.sessionId →
          ∀ other, ¬Acceptable proto s.binds ext other := by
        intro hadmits other hother
        have heq := hparse.symm.trans hother.1
        obtain rfl : bind = other := by simpa using heq
        exact hadmits hother.2.2
      by_cases hdup : s.binds.any fun item => item.id == bind.sessionId
      · refine Or.inr ⟨hrefused fun hadmits => ?_, by simp only [hdup, if_true]⟩
        obtain ⟨item, hitem, hid⟩ := List.any_eq_true.mp hdup
        exact hadmits.1 item hitem (by simpa using hid)
      · by_cases hlocked : s.binds.any fun item => !item.fwd
        · refine Or.inr ⟨hrefused fun hadmits => ?_, by
            simp only [hdup, hlocked, if_true, if_false, Bool.false_eq_true]⟩
          obtain ⟨item, hitem, hfwd⟩ := List.any_eq_true.mp hlocked
          rw [hadmits.2 item hitem] at hfwd
          cases hfwd
        · refine Or.inl ⟨bind, ⟨hparse, hverify, ?_, ?_⟩, by
            simp only [hdup, hlocked, if_false, Bool.false_eq_true]⟩
          · intro item hitem hid
            exact hdup (List.any_eq_true.mpr ⟨item, hitem, by simpa using hid⟩)
          · intro item hitem
            by_contra hfwd
            exact hlocked (List.any_eq_true.mpr ⟨item, hitem, by simpa using hfwd⟩)

/-! ### One request -/

theorem extension_of_bind {ext : Extension} (h : ext.name = bindExtension) :
    extension proto s ext = sessionBind proto s ext := by
  rw [extension, h, if_neg (by decide), if_pos rfl]

/-- How an extension other than a session-bind is answered; the session stays as it is. -/
theorem extension_of_not_bind {ext : Extension} (h : ext.name ≠ bindExtension) :
    (extension proto s ext).1 = s ∧
      ((∃ res, ext.name = queryExtension ∧ (extension proto s ext).2 = .extension (some res)) ∨
        (∃ text, ext.name = queryExtension ∧
          proto.queryResponse [queryExtension, bindExtension] = .error text ∧
          (extension proto s ext).2 = other text) ∨
        ext.name ≠ queryExtension ∧ (extension proto s ext).2 = .error .failure) := by
  by_cases hquery : ext.name = queryExtension
  · rw [extension, if_pos hquery]
    cases proto.queryResponse [queryExtension, bindExtension] with
    | ok res => exact ⟨rfl, Or.inl ⟨res, hquery, rfl⟩⟩
    | error text => exact ⟨rfl, Or.inr (Or.inl ⟨text, hquery, rfl, rfl⟩)⟩
  · rw [extension, if_neg hquery, if_neg h]
    exact ⟨rfl, Or.inr (Or.inr ⟨hquery, rfl⟩)⟩

/-- A session-bind that is accepted has no answer but this one, and nothing else has it. -/
def Reply.isAccepted : Reply keys → Bool
  | .extension none => true
  | _ => false

/-- The record that an exchange has left, if it has. -/
def recorded (proto : AgentProto) (x : Exchange keys) : Option Bind :=
  match x.request with
  | .extension ext =>
      if x.reply.isAccepted then
        (checkBind proto ext).map fun bind => ⟨bind.sessionId, bind.isForwarding⟩
      else none
  | _ => none

/-- An exchange with a request, as `run` writes it down. -/
def exchangeOf (proto : AgentProto) (s : OpenSession keys Provider) (answer : Nat → Answer keys)
    (request : Request keys) : Exchange keys :=
  ⟨request, answer, (s.handle proto answer request).2.1, (s.handle proto answer request).2.2⟩

/-- A request that needs the index leaves the records alone. -/
theorem Served.sameBinds {request : Request keys} {s' : OpenSession keys Provider} {calls : List Nat}
    {reply : Reply keys} (h : Served proto s answer request s' calls reply)
    (hneeds : request.needsKeys = true) : s'.binds = s.binds := by
  cases h with
  | cached _ hkeys => rfl
  | loaded _ hnone hload => rfl
  | failed _ hnone hload => rfl
  | extension ext => cases hneeds

/-- **A request appends the record it leaves**, and leaves one only where it is admitted. -/
theorem handle_binds (proto : AgentProto) (s : OpenSession keys Provider)
    (answer : Nat → Answer keys) (request : Request keys) :
    (s.handle proto answer request).1.binds =
        s.binds ++ (recorded proto (exchangeOf proto s answer request)).toList ∧
      ∀ b ∈ recorded proto (exchangeOf proto s answer request), Admits s.binds b.id := by
  -- where no record is left, the ones there were stay
  have hnone : (s.handle proto answer request).1.binds = s.binds →
      recorded proto (exchangeOf proto s answer request) = none →
      (s.handle proto answer request).1.binds =
          s.binds ++ (recorded proto (exchangeOf proto s answer request)).toList ∧
        ∀ b ∈ recorded proto (exchangeOf proto s answer request), Admits s.binds b.id := by
    intro hbinds hnone
    rw [hbinds, hnone]
    simp
  have hserved := handle_served proto s answer request
  cases request with
  | identities => exact hnone (hserved.sameBinds rfl) rfl
  | sign req => exact hnone (hserved.sameBinds rfl) rfl
  | extension ext =>
      by_cases hbind : ext.name = bindExtension
      · have hstep : s.handle proto answer (.extension ext) =
            ((sessionBind proto s ext).1, [], (sessionBind proto s ext).2) := by
          simp only [handle, extension_of_bind hbind]
        rcases sessionBind_cases proto s ext with ⟨bind, haccept, hstep'⟩ | ⟨-, hstep'⟩
        · have hrecorded : recorded proto (exchangeOf proto s answer (.extension ext)) =
              some ⟨bind.sessionId, bind.isForwarding⟩ := by
            simp only [recorded, exchangeOf, hstep, hstep', Reply.isAccepted, if_true,
              checkBind_eq_some.mpr ⟨haccept.1, haccept.2.1⟩, Option.map_some]
          rw [hrecorded, hstep, hstep']
          refine ⟨rfl, ?_⟩
          intro b hb
          obtain rfl := Option.some.inj hb
          exact haccept.2.2
        · refine hnone ?_ ?_
          · rw [hstep, hstep']
          · simp only [recorded, exchangeOf, hstep, hstep', Reply.isAccepted, if_false,
              Bool.false_eq_true]
      · obtain ⟨hsame, hreply⟩ := @extension_of_not_bind keys Provider proto s ext hbind
        refine hnone (congrArg OpenSession.binds hsame) ?_
        have hrefused : (extension proto s ext).2.isAccepted = false := by
          rcases hreply with ⟨res, -, hreply⟩ | ⟨text, -, -, hreply⟩ | ⟨-, hreply⟩
          · rw [hreply]
            rfl
          · rw [hreply]
            rfl
          · rw [hreply]
            rfl
        simp only [recorded, exchangeOf, handle, hrefused, if_false, Bool.false_eq_true]

/-! ### A connection -/

/-- The records of a connection are the ones its requests have left, in their order. -/
theorem run_records (proto : AgentProto) :
    ∀ (requests : List (Request keys × (Nat → Answer keys))) (s : OpenSession keys Provider),
      (s.run proto requests).1.binds =
        s.binds ++ (s.run proto requests).2.filterMap (recorded proto) := by
  intro requests
  induction requests with
  | nil =>
      intro s
      exact (List.append_nil _).symm
  | cons x rest ih =>
      obtain ⟨request, answer⟩ := x
      intro s
      have hstep := (handle_binds proto s answer request).1
      rw [run_cons]
      show ((s.handle proto answer request).1.run proto rest).1.binds = s.binds ++
        (exchangeOf proto s answer request ::
          ((s.handle proto answer request).1.run proto rest).2).filterMap (recorded proto)
      rw [ih, hstep, List.filterMap_cons, List.append_assoc]
      cases recorded proto (exchangeOf proto s answer request) with
      | none => rfl
      | some b => rfl

/-- **The records stay well formed along a connection.** -/
theorem run_wellBound (proto : AgentProto) :
    ∀ (requests : List (Request keys × (Nat → Answer keys))) (s : OpenSession keys Provider),
      WellBound s.binds → WellBound (s.run proto requests).1.binds := by
  intro requests
  induction requests with
  | nil => exact fun s h => h
  | cons x rest ih =>
      obtain ⟨request, answer⟩ := x
      intro s h
      obtain ⟨hbinds, hadmits⟩ := handle_binds proto s answer request
      rw [run_cons]
      refine ih _ ?_
      rw [hbinds]
      cases hrecorded : recorded proto (exchangeOf proto s answer request) with
      | none => simpa using h
      | some b => exact h.append (hadmits b hrecorded)

/-- **A connection that is bound for authentication stays as it is bound.** -/
theorem run_locked (proto : AgentProto) :
    ∀ (requests : List (Request keys × (Nat → Answer keys))) (s : OpenSession keys Provider),
      (∃ b ∈ s.binds, b.fwd = false) → (s.run proto requests).1.binds = s.binds ∧
        ∀ x ∈ (s.run proto requests).2, ∀ ext, x.request = .extension ext →
          ext.name = bindExtension → x.reply = .error .extensionFailure := by
  intro requests
  induction requests with
  | nil => exact fun s _ => ⟨rfl, by simp [OpenSession.run]⟩
  | cons x rest ih =>
      obtain ⟨request, answer⟩ := x
      intro s hlocked
      have hrefuses : ∀ id, ¬Admits s.binds id := by
        intro id hadmits
        obtain ⟨b, hb, hfwd⟩ := hlocked
        rw [hadmits.2 b hb] at hfwd
        cases hfwd
      have hsame : (s.handle proto answer request).1.binds = s.binds := by
        obtain ⟨hbinds, hadmits⟩ := handle_binds proto s answer request
        cases hrecorded : recorded proto (exchangeOf proto s answer request) with
        | none => simpa [hrecorded] using hbinds
        | some b => exact absurd (hadmits b hrecorded) (hrefuses b.id)
      obtain ⟨hrest, hreplies⟩ := ih (s.handle proto answer request).1 (by rwa [hsame])
      rw [run_cons]
      refine ⟨hrest.trans hsame, ?_⟩
      intro y hy ext hext hname
      rcases List.mem_cons.mp hy with rfl | hy
      · obtain rfl : request = .extension ext := hext
        show (extension proto s ext).2 = _
        rw [extension_of_bind hname]
        rcases sessionBind_cases proto s ext with ⟨bind, haccept, -⟩ | ⟨-, hstep⟩
        · exact absurd haccept.2.2 (hrefuses _)
        · rw [hstep]
      · exact hreplies y hy ext hext hname

/-- What a session makes of extensions, from where it is. -/
structure BindLaw (proto : AgentProto) (s : OpenSession keys Provider) : Prop where
  wellBound : WellBound s.binds
  /-- A session-bind is accepted exactly when it parses, its signature verifies, its id is
  not recorded and every record forwards. -/
  accepted_iff : ∀ answer ext, ext.name = bindExtension →
    ((s.handle proto answer (.extension ext)).2.2 = .extension none ↔
      ∃ bind, Acceptable proto s.binds ext bind)
  appended : ∀ answer ext bind, ext.name = bindExtension →
    (s.handle proto answer (.extension ext)).2.2 = .extension none →
    proto.parseBind ext = .ok (some bind) →
    (s.handle proto answer (.extension ext)).1 =
      { s with binds := s.binds ++ [⟨bind.sessionId, bind.isForwarding⟩] }
  /-- A rejected extension changes nothing.  The error of a query is the encoder's, about an
  answer that does not depend on the request. -/
  rejected : ∀ answer ext error,
    (s.handle proto answer (.extension ext)).2.2 = .error error →
    (s.handle proto answer (.extension ext)).1 = s ∧
      (ext.name = bindExtension ∧ error = .extensionFailure ∨
        ext.name ≠ bindExtension ∧ ext.name ≠ queryExtension ∧ error = .failure ∨
        ext.name = queryExtension ∧ ∃ text,
          proto.queryResponse [queryExtension, bindExtension] = .error text ∧
            error = .other text)
  /-- Only a session-bind is recorded. -/
  kept : ∀ answer request, (∀ ext, request = .extension ext → ext.name ≠ bindExtension) →
    (s.handle proto answer request).1.binds = s.binds
  /-- After a bind that does not forward there is no other. -/
  locked : (∃ b ∈ s.binds, b.fwd = false) → ∀ requests,
    (s.run proto requests).1.binds = s.binds ∧
      ∀ x ∈ (s.run proto requests).2, ∀ ext, x.request = .extension ext →
        ext.name = bindExtension → x.reply = .error .extensionFailure

theorem bindLaw_of_wellBound (h : WellBound s.binds) : BindLaw proto s where
  wellBound := h
  accepted_iff answer ext hname := by
    show (extension proto s ext).2 = _ ↔ _
    rw [extension_of_bind hname]
    rcases sessionBind_cases proto s ext with ⟨bind, haccept, hstep⟩ | ⟨hnone, hstep⟩
    · rw [hstep]
      exact ⟨fun _ => ⟨bind, haccept⟩, fun _ => rfl⟩
    · rw [hstep]
      constructor
      · intro hreply
        cases hreply
      · rintro ⟨bind, haccept⟩
        exact absurd haccept (hnone bind)
  appended answer ext bind hname hreply hparse := by
    change (extension proto s ext).2 = _ at hreply
    show (extension proto s ext).1 = _
    rw [extension_of_bind hname] at hreply ⊢
    rcases sessionBind_cases proto s ext with ⟨bind', haccept, hstep⟩ | ⟨-, hstep⟩
    · have heq := hparse.symm.trans haccept.1
      obtain rfl : bind = bind' := by simpa using heq
      rw [hstep]
    · rw [hstep] at hreply
      cases hreply
  rejected answer ext error hreply := by
    change (extension proto s ext).2 = _ at hreply
    show (extension proto s ext).1 = _ ∧ _
    by_cases hname : ext.name = bindExtension
    · rw [extension_of_bind hname] at hreply ⊢
      rcases sessionBind_cases proto s ext with ⟨bind, -, hstep⟩ | ⟨-, hstep⟩
      · rw [hstep] at hreply
        cases hreply
      · rw [hstep] at hreply ⊢
        cases hreply
        exact ⟨rfl, Or.inl ⟨hname, rfl⟩⟩
    · obtain ⟨hsame, hother⟩ := @extension_of_not_bind keys Provider proto s ext hname
      refine ⟨hsame, Or.inr ?_⟩
      rcases hother with ⟨res, -, hres⟩ | ⟨text, hquery, hencode, hres⟩ | ⟨hquery, hres⟩
      · rw [hres] at hreply
        cases hreply
      · rw [hres] at hreply
        cases hreply
        exact Or.inr ⟨hquery, text, hencode, rfl⟩
      · rw [hres] at hreply
        cases hreply
        exact Or.inl ⟨hname, hquery, rfl⟩
  kept answer request hnot := by
    have hserved := handle_served proto s answer request
    cases request with
    | identities => exact hserved.sameBinds rfl
    | sign req => exact hserved.sameBinds rfl
    | extension ext =>
        exact congrArg OpenSession.binds (extension_of_not_bind (hnot ext rfl)).1
  locked hlocked requests := run_locked proto requests s hlocked

/-- **A connection is bound by distinct sessions, and for authentication at most once**,
whatever the client sends and in whatever order. -/
theorem run_binds (proto : AgentProto) (session : ServiceSession Provider)
    (requests : List (Request keys × (Nat → Answer keys))) :
    BindLaw proto ((start session : OpenSession keys Provider).run proto requests).1 ∧
      ((start session : OpenSession keys Provider).run proto requests).1.binds =
        ((start session : OpenSession keys Provider).run proto requests).2.filterMap
          (recorded proto) := by
  refine ⟨bindLaw_of_wellBound (run_wellBound proto requests _ wellBound_nil), ?_⟩
  have hrecords := run_records proto requests (start session : OpenSession keys Provider)
  rw [hrecords]
  exact List.nil_append _

end Keyring.Service
