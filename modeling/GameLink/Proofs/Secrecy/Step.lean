import GameLink.Client.Step
import GameLink.Proofs.Secrecy.Machine

/-! # Steps under the veil

One lemma for each function that a step is made of: the function does to the
veiled client what the veil makes of its result. A token is read in two places
only: a sign-in decodes it, to which the veil makes no difference, and a connect
puts it in an address. There the veil has to be that of the client's own server.
-/
namespace GameLink.Client.Machine
variable {server : Settings.Server} (m : Machine)

/-! ## Dispatching a frame -/

theorem dispatchReply_veil (cid : String) (outcome : Outcome) :
    (m.dispatchReply cid outcome).veil server = (m.veil server).dispatchReply cid outcome :=
  veiled_ite Iff.rfl (fun _ => rfl) (fun _ => rfl)

theorem dispatchPush_veil (e : Envelope) :
    (m.dispatchPush e).veil server = (m.veil server).dispatchPush e := by
  unfold dispatchPush
  split <;> rw [emit_veil, log_veil]

theorem dispatch_veil (frame : Bytes) :
    (m.dispatch frame).veil server = (m.veil server).dispatch frame := by
  unfold dispatch
  split
  · rw [emit_veil, log_veil]
  · split
    · exact dispatchReply_veil ..
    · exact dispatchPush_veil ..

/-! ## Teardown -/

theorem afterTeardown_veil (t : Task) :
    (m.afterTeardown t).veil server = (m.veil server).afterTeardown (t.veil server) := by
  obtain ⟨id, role, position, aborted⟩ := t
  cases role with
  | operation op => exact finish_veil ..
  | reader g link =>
    rw [afterTeardown, removeTask_veil, closeReader_veil]
    rfl
  | heartbeat g => exact removeTask_veil ..

theorem beginTeardown_veil (t : Task) (td : Teardown) :
    (m.beginTeardown t td).veil server = (m.veil server).beginTeardown (t.veil server) td := by
  refine veiled_ite Iff.rfl (fun _ => ?_) (fun _ => afterTeardown_veil ..)
  rw [move_veil, joinLock_veil]
  dsimp only
  split
  · rw [emit_veil, cancelStored_veil]
    rfl
  · rw [cancelStored_veil]
    rfl

theorem applyPolicy_veil (cause : Cause) :
    (m.applyPolicy cause).veil server = (m.veil server).applyPolicy cause := by
  cases hp : m.policy with
  | notify => simp only [applyPolicy, record, veil_policy, hp]; rfl
  | manual => simp only [applyPolicy, record, veil_policy, hp]; rfl
  | redial left token =>
    simp only [applyPolicy, record, veil_policy, hp, Policy.veil]
    refine veiled_ite ?_ (fun _ => rfl) (fun _ => start_veil ..)
    have hinUse : (m.veil server).inUse = m.inUse := inUse_veil m
    exact Iff.of_eq (congrArg (fun b : Bool => left = 0 ∨ (!b) = true) hinUse.symm)

theorem endTeardown_veil (t : Task) (td : Teardown) :
    (m.endTeardown t td).veil server = (m.veil server).endTeardown (t.veil server) td := by
  simp only [endTeardown, afterTeardown_veil]
  congr 1
  refine veiled_ite Iff.rfl (fun _ => ?_) (fun _ => ?_)
  · refine veiled_ite Iff.rfl (fun _ => emit_veil ..) (fun _ => rfl)
  · rw [applyPolicy_veil]
    congr 1
    exact veiled_ite Iff.rfl (fun _ => emit_veil ..) (fun _ => rfl)

theorem tearWriter_veil (t : Task) (td : Teardown) :
    (m.tearWriter t td).veil server = (m.veil server).tearWriter (t.veil server) td := by
  unfold tearWriter
  cases hw : m.writer with
  | none =>
    simp only [veil_writer, hw]
    exact endTeardown_veil ..
  | some link =>
    simp only [veil_writer, hw]
    cases hc : m.closeMode with
    | normal =>
      simp only [leaveLock, veil_closeMode, hc, endTeardown_veil, closeWriter_veil]
      rfl
    | fail =>
      simp only [leaveLock, veil_closeMode, hc, endTeardown_veil, closeWriter_veil]
      rfl
    | hang =>
      simp only [leaveLock, veil_closeMode, hc, move_veil]
      rfl

theorem runTeardown_veil (t : Task) (td : Teardown) (stage : TeardownStage) :
    (m.runTeardown t td stage).veil server =
      (m.veil server).runTeardown (t.veil server) td stage := by
  cases stage with
  | queued => exact tearWriter_veil ..
  | closing link deadline =>
    rw [runTeardown, endTeardown_veil, closeWriter_veil]
    rfl

/-! ## Exchanges -/

/-- What a step of an exchange leads to. -/
def veilStep (server : Settings.Server) (r : Machine × Exchanged) : Machine × Exchanged :=
  (r.1.veil server, r.2)

theorem notSent_veil (x : Exchange) (f : Failure) :
    veilStep server (m.notSent x f) = (m.veil server).notSent x f := by
  unfold notSent
  split <;> rfl

theorem wasSent_veil (x : Exchange) :
    veilStep server (m.wasSent x) = (m.veil server).wasSent x := by
  unfold wasSent
  split <;> rfl

theorem beginExchange_veil (id : TaskId) (x : Exchange) :
    veilStep server (m.beginExchange id x) = (m.veil server).beginExchange id x :=
  veiled_ite Iff.rfl (fun _ => rfl) (fun _ => notSent_veil ..)

theorem write_veil (l : Link) (frame : String) :
    (l.veil server).write frame = (((l.write frame).1).veil server, (l.write frame).2) := by
  obtain ⟨url, toServer, toClient, mode, writerOpen, readerOpen, serverOpen⟩ := l
  cases writerOpen <;> cases mode <;> cases serverOpen <;> rfl

theorem writeFrame_veil (id : TaskId) (x : Exchange) :
    veilStep server (m.writeFrame id x) = (m.veil server).writeFrame id x := by
  unfold writeFrame
  cases hw : m.writer with
  | none =>
    simp only [veil_writer, hw]
    exact notSent_veil ..
  | some link =>
    simp only [veil_writer, hw, Option.bind_some, link?_veil]
    cases hl : m.links[link]? with
    | none => exact notSent_veil ..
    | some l =>
      simp only [Option.map_some, write_veil]
      cases hwritten : l.write (frameOf x).toText with
      | mk l' written =>
        cases written with
        | stalls => rfl
        | failed f => exact notSent_veil ..
        | sent =>
          simp only [wasSent_veil, leaveLock_veil, record_veil, replaceLink_veil]
          rfl

theorem takeReply_veil (x : Exchange) (ticket : Ticket) :
    veilStep server (m.takeReply x ticket) = (m.veil server).takeReply x ticket := by
  unfold takeReply
  cases hw : m.registry.wait ticket x.timeout m.now with
  | none => simp only [veil_registry, veil_now, hw]; rfl
  | some outcome =>
    simp only [veil_registry, veil_now, hw]
    cases outcome with
    | ok e => rfl
    | error f => cases f <;> rfl

theorem runExchange_veil (id : TaskId) (x : Exchange) (stage : ExchangeStage) :
    veilStep server (m.runExchange id x stage) = (m.veil server).runExchange id x stage := by
  cases stage with
  | queued => exact writeFrame_veil ..
  | stalled deadline => exact notSent_veil ..
  | awaiting =>
    simp only [runExchange]
    split
    · exact takeReply_veil ..
    · rfl

theorem exchangeReady_veil (id : TaskId) (x : Exchange) (stage : ExchangeStage) :
    (m.veil server).exchangeReady id x stage = m.exchangeReady id x stage := by
  cases stage <;> rfl

theorem noteAnswer_veil (id : TaskId) (x : Exchange) (outcome : Except Failure Answer) :
    (m.noteAnswer id x outcome).veil server = (m.veil server).noteAnswer id x outcome := by
  unfold noteAnswer
  split <;> rfl

theorem dropExchange_veil (id : TaskId) (x : Exchange) :
    (m.dropExchange id x).veil server = (m.veil server).dropExchange id x := by
  unfold dropExchange
  split <;> rfl

/-! ## Operations -/

theorem conclude_veil (op : Operation) (outcome : Except Failure Answer) :
    conclude op.veil outcome = conclude op outcome := by
  cases op <;> rfl

theorem settleExchange_veil (t : Task) (op : Operation) (x : Exchange) (r : Machine × Exchanged) :
    (settleExchange t op x r).veil server =
      settleExchange (t.veil server) op.veil x (veilStep server r) := by
  obtain ⟨m, exchanged⟩ := r
  cases exchanged with
  | waiting stage => exact move_veil ..
  | ended outcome =>
    simp only [settleExchange, veilStep, finish_veil, noteAnswer_veil, conclude_veil]
    rfl

theorem beginSend_veil (t : Task) (op : Operation) (message : Outbound) :
    (m.beginSend t op message).veil server =
      (m.veil server).beginSend (t.veil server) op.veil message := by
  rw [beginSend, settleExchange_veil, beginExchange_veil]
  rfl

theorem beginRequest_veil (t : Task) (op : Operation) (message : Outbound) (bound : Bound) :
    (m.beginRequest t op message bound).veil server =
      (m.veil server).beginRequest (t.veil server) op.veil message bound := by
  rw [beginRequest, settleExchange_veil, beginExchange_veil]
  cases bound <;> rfl

theorem beginCall_veil (t : Task) (op : Operation) (call : Call) :
    (m.beginCall t op call).veil server =
      (m.veil server).beginCall (t.veil server) op.veil call := by
  unfold beginCall
  split
  · exact finish_veil ..
  · split
    · exact beginRequest_veil ..
    · exact beginSend_veil ..

theorem beginClose_veil (t : Task) (notify : Bool) :
    (m.beginClose t notify).veil server = (m.veil server).beginClose (t.veil server) notify := by
  unfold beginClose
  cases hs : m.state with
  | idle => simp only [veil_state, hs]; exact finish_veil ..
  | closing => simp only [veil_state, hs]; exact finish_veil ..
  | «open» => simp only [veil_state, hs]; exact beginTeardown_veil ..
  | connecting => simp only [veil_state, hs]; exact finish_veil ..

/-! ## Connecting -/

theorem refuseConnect_veil (t : Task) (reason : String) :
    (m.refuseConnect t reason).veil server =
      (m.veil server).refuseConnect (t.veil server) reason := finish_veil ..

theorem beginDial_veil (hm : m.settings.server = server) (t : Task) (session : Session)
    (online : Bool) :
    (m.beginDial t session online).veil server =
      (m.veil server).beginDial (t.veil server) session.veil online := by
  -- the record has the address with a mark for the token, so that the veil leaves it
  rw [beginDial, move_veil, log_veil, Position.veil, hm, Link.veilUrl_address]
  rw [beginDial, veil_settings, hm]
  rfl

theorem beginConnect_veil (hm : m.settings.server = server) (t : Task) (session : Session)
    (online : Option Bool) :
    (m.beginConnect t session online).veil server =
      (m.veil server).beginConnect (t.veil server) session.veil online := by
  have hempty : session.veil.token.isEmpty = session.token.isEmpty := Claims.isEmpty_veil _
  have hexpired : session.veil.accessExpired m.clock = session.accessExpired m.clock := rfl
  unfold beginConnect
  simp only [hempty, veil_clock, hexpired]
  split
  · exact finish_veil ..
  · rw [refuseConnect_veil, log_veil]
    rfl
  · exact veiled_ite Iff.rfl (fun _ => beginDial_veil _ hm ..) (fun _ => refuseConnect_veil ..)

theorem beginSignIn_veil (hm : m.settings.server = server) (t : Task) (token : String)
    (online : Option Bool) :
    (m.beginSignIn t token online).veil server =
      (m.veil server).beginSignIn (t.veil server) (Claims.veil token) online := by
  have hstart : Session.start (Claims.veil token) "" false m.clock =
      (Session.start token "" false m.clock).map Session.veil := by
    have hpair := Session.start_veil ⟨token, ""⟩ false m.clock
    rwa [Session.Tokens.veil, Claims.veil_empty] at hpair
  unfold beginSignIn
  rw [veil_clock, hstart]
  cases Session.start token "" false m.clock with
  | error e => exact finish_veil ..
  | ok session => exact beginConnect_veil (m.log session.appliedNote) hm t session online

theorem abandonConnect_veil (g : Generation) :
    (m.abandonConnect g).veil server = (m.veil server).abandonConnect g :=
  veiled_ite Iff.rfl (fun _ => rfl) (fun _ => rfl)

theorem failConnect_veil (t : Task) (g : Generation) (f : Failure) :
    (m.failConnect t g f).veil server = (m.veil server).failConnect (t.veil server) g f := by
  rw [failConnect, finish_veil, log_veil, abandonConnect_veil]
  rfl

theorem linkDialed_veil (t : Task) (g : Generation) (link : Link) :
    (m.linkDialed t g link).veil server =
      (m.veil server).linkDialed (t.veil server) g (link.veil server) := by
  have hlength : (m.veil server).links.length = m.links.length := List.length_map _
  have hlinks : (m.links ++ [link]).map (Link.veil server) =
      (m.veil server).links ++ [link.veil server] := List.map_append
  rw [linkDialed, move_veil, joinLock_veil, record_veil, linkDialed, hlength, ← hlinks]
  rfl

theorem runDial_veil (t : Task) (g : Generation) (url : String) (deadline : Nat)
    (stage : DialStage) :
    (m.runDial t g url deadline stage).veil server =
      (m.veil server).runDial (t.veil server) g (Link.veilUrl server url) deadline stage := by
  cases stage with
  | hung => exact failConnect_veil ..
  | delayed wake failure =>
    refine veiled_ite Iff.rfl (fun _ => ?_) (fun _ => failConnect_veil ..)
    cases failure with
    | some f => exact failConnect_veil ..
    | none =>
      cases hd : m.dialer.mode with
      | accept => simp only [veil_dialer, hd]; exact linkDialed_veil ..
      | refuse reason => simp only [veil_dialer, hd]; exact failConnect_veil ..
      | hang => simp only [veil_dialer, hd]; exact move_veil ..

theorem setWriter_veil (link : LinkId) :
    (m.setWriter link).veil server = (m.veil server).setWriter link := by
  unfold setWriter
  cases hw : m.writer with
  | none => simp only [veil_writer, hw]; rfl
  | some old =>
    simp only [veil_writer, hw]
    rw [← closeWriter_veil]
    rfl

theorem installLink_veil (t : Task) (g : Generation) (link : LinkId) :
    (m.installLink t g link).veil server =
      (m.veil server).installLink (t.veil server) g link := by
  rw [installLink, finish_veil, spawn_veil, spawn_veil, emit_veil, log_veil, leaveLock_veil,
    setWriter_veil, record_veil]
  rfl

theorem endDiscard_veil (t : Task) (g : Generation) (link : LinkId) :
    (m.endDiscard t g link).veil server = (m.veil server).endDiscard (t.veil server) g link := by
  rw [endDiscard, refuseConnect_veil, closeReader_veil, log_veil, closeWriter_veil]
  rfl

theorem runInstall_veil (t : Task) (g : Generation) (link : LinkId) :
    (m.runInstall t g link).veil server =
      (m.veil server).runInstall (t.veil server) g link := by
  refine veiled_ite Iff.rfl (fun _ => installLink_veil ..) (fun _ => ?_)
  cases hc : m.closeMode with
  | normal => simp only [leaveLock, veil_closeMode, hc]; exact endDiscard_veil ..
  | fail => simp only [leaveLock, veil_closeMode, hc]; exact endDiscard_veil ..
  | hang => simp only [leaveLock, veil_closeMode, hc]; exact move_veil ..

/-! ## Background tasks -/

theorem receive_veil (l : Link) :
    (l.veil server).receive = (l.receive.1.veil server, l.receive.2) := by
  obtain ⟨url, toServer, toClient, mode, writerOpen, readerOpen, serverOpen⟩ := l
  cases toClient with
  | nil => rfl
  | cons frame rest => cases frame <;> rfl

theorem runReading_veil (t : Task) (g : Generation) (link : LinkId) :
    (m.runReading t g link).veil server =
      (m.veil server).runReading (t.veil server) g link := by
  refine veiled_ite Iff.rfl (fun _ => ?_) (fun _ => ?_)
  · rw [removeTask_veil, closeReader_veil]
    rfl
  · rw [link?_veil]
    cases m.links[link]? with
    | none => exact removeTask_veil ..
    | some l =>
      simp only [Option.map_some, receive_veil]
      cases l.receive with
      | mk l' received =>
        cases received with
        | nothing => rfl
        | frame bytes =>
          simp only [dispatch_veil, record_veil, replaceLink_veil]
          rfl
        | failed f => simp only [beginTeardown_veil, log_veil, replaceLink_veil]
        | closed => exact beginTeardown_veil ..

theorem settleProbe_veil (t : Task) (g : Generation) (ticker : Heartbeat.Ticker) (x : Exchange)
    (r : Machine × Exchanged) :
    (settleProbe t g ticker x r).veil server =
      settleProbe (t.veil server) g ticker x (veilStep server r) := by
  obtain ⟨m, exchanged⟩ := r
  cases exchanged with
  | waiting stage => exact move_veil ..
  | ended outcome =>
    cases outcome with
    | ok answer =>
      simp only [settleProbe, veilStep, move_veil, log_veil, noteAnswer_veil]
      rfl
    | error f =>
      simp only [settleProbe, veilStep, beginTeardown_veil, log_veil, noteAnswer_veil]
      rfl

theorem runTick_veil (t : Task) (g : Generation) (ticker : Heartbeat.Ticker) :
    (m.runTick t g ticker).veil server = (m.veil server).runTick (t.veil server) g ticker := by
  refine veiled_ite Iff.rfl (fun _ => removeTask_veil ..) (fun _ => ?_)
  rw [settleProbe_veil, beginExchange_veil]
  rfl

theorem runProbe_veil (t : Task) (g : Generation) (ticker : Heartbeat.Ticker) (x : Exchange)
    (stage : ExchangeStage) :
    (m.runProbe t g ticker x stage).veil server =
      (m.veil server).runProbe (t.veil server) g ticker x stage := by
  refine veiled_ite Iff.rfl (fun _ => ?_) (fun _ => ?_)
  · rw [removeTask_veil, dropExchange_veil]
    rfl
  · rw [settleProbe_veil, runExchange_veil]
    rfl

/-! ## One step -/

theorem dropTask_veil (t : Task) :
    (m.dropTask t).veil server = (m.veil server).dropTask (t.veil server) := by
  obtain ⟨id, role, position, aborted⟩ := t
  cases position with
  | start | dialing | reading | ticking => exact removeTask_veil ..
  | installing g link =>
    simp only [dropTask, removeTask_veil, closeReader_veil, closeWriter_veil, leaveLock_veil]
    rfl
  | discarding link =>
    simp only [dropTask, removeTask_veil, closeReader_veil, closeWriter_veil]
    rfl
  | exchanging x stage =>
    simp only [dropTask, removeTask_veil, dropExchange_veil]
    rfl
  | probing ticker x stage =>
    simp only [dropTask, removeTask_veil, dropExchange_veil]
    rfl
  | tearing td stage =>
    cases stage with
    | queued => exact removeTask_veil ..
    | closing link deadline =>
      simp only [dropTask, removeTask_veil, closeWriter_veil]
      rfl

theorem runStart_veil (hm : m.settings.server = server) (t : Task) :
    (m.runStart t).veil server = (m.veil server).runStart (t.veil server) := by
  obtain ⟨id, role, position, aborted⟩ := t
  cases role with
  | operation op =>
    cases op with
    | connect session online => exact beginConnect_veil _ hm ..
    | signIn token online => exact beginSignIn_veil _ hm ..
    | close notify => exact beginClose_veil ..
    | send message => exact beginSend_veil ..
    | request message bound => exact beginRequest_veil ..
    | perform call => exact beginCall_veil ..
  | reader g link => exact move_veil ..
  | heartbeat g => exact move_veil ..

theorem runTask_veil (hm : m.settings.server = server) (t : Task) :
    (m.runTask t).veil server = (m.veil server).runTask (t.veil server) := by
  refine veiled_ite Iff.rfl (fun _ => dropTask_veil ..) (fun _ => ?_)
  obtain ⟨id, role, position, aborted⟩ := t
  cases position with
  | start => exact runStart_veil _ hm _
  | tearing td stage => exact runTeardown_veil ..
  | dialing g url deadline stage => exact runDial_veil ..
  | installing g link => exact runInstall_veil ..
  | discarding link => rfl
  | exchanging x stage =>
    cases role with
    | operation op =>
      simp only [settleExchange_veil, runExchange_veil]
      rfl
    | reader | heartbeat => rfl
  | reading =>
    cases role with
    | reader g link => exact runReading_veil ..
    | operation | heartbeat => rfl
  | ticking ticker =>
    cases role with
    | heartbeat g => exact runTick_veil ..
    | operation | reader => rfl
  | probing ticker x stage =>
    cases role with
    | heartbeat g => exact runProbe_veil ..
    | operation | reader => rfl

end GameLink.Client.Machine
