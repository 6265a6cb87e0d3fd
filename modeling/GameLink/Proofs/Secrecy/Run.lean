import GameLink.Proofs.Client.Onward
import GameLink.Proofs.Secrecy.Step

/-! # Runs under the veil

What may happen to a client, what its workers can do and how far time may pass
does not depend on what the veil hides. So a run of a client is a run of the
veiled client, move by move.
-/
namespace GameLink.Client

def Action.veil : Action → Action
  | .start op => .start op.veil
  | a => a

def Move.veil : Move → Move
  | .act a => .act a.veil
  | v => v

namespace Machine
variable {server : Settings.Server} (m : Machine)

/-! ## Actions -/

theorem abort_veil (id : TaskId) :
    (m.abort id).veil server = (m.veil server).abort id := by
  have htasks : (m.abort id).tasks.map (Task.veil server) = ((m.veil server).abort id).tasks := by
    simp only [abort, veil, List.map_map]
    refine List.map_congr_left fun t _ => ?_
    exact veiled_ite (f := Task.veil server) Iff.rfl (fun _ => rfl) (fun _ => rfl)
  rw [veil, htasks]
  rfl

theorem received_veil : (m.veil server).receive = (m.receive.1.veil server, m.receive.2) := by
  simp only [receive, veil_handler]
  cases m.handler <;> rfl

theorem dropHandle_veil : m.dropHandle.veil server = (m.veil server).dropHandle :=
  release_veil _

theorem push_veil (l : Link) (frame : ServerFrame) :
    (l.veil server).push frame = ((l.push frame).1.veil server, (l.push frame).2) := by
  obtain ⟨url, toServer, toClient, mode, writerOpen, readerOpen, serverOpen⟩ := l
  cases readerOpen <;> rfl

theorem take_veil (l : Link) :
    (l.veil server).take = (l.take.1.veil server, l.take.2) := by
  obtain ⟨url, toServer, toClient, mode, writerOpen, readerOpen, serverOpen⟩ := l
  cases toServer <;> rfl

theorem serverPush_veil (link : LinkId) (frame : ServerFrame) :
    (m.serverPush link frame).veil server = (m.veil server).serverPush link frame := by
  rw [serverPush, serverPush, link?_veil]
  cases m.links[link]? with
  | none => rfl
  | some l =>
    simp only [Option.map_some, push_veil]
    cases l.push frame with
    | mk l' arrived =>
      cases arrived with
      | true =>
        simp only [record_veil, replaceLink_veil]
        rfl
      | false => rfl

theorem serverTake_veil (link : LinkId) :
    (m.serverTake link).veil server = (m.veil server).serverTake link := by
  rw [serverTake, serverTake, link?_veil]
  cases m.links[link]? with
  | none => rfl
  | some l =>
    simp only [Option.map_some, take_veil]
    cases l.take with
    | mk l' taken =>
      cases taken with
      | frame text =>
        simp only [record_veil, replaceLink_veil]
        rfl
      | closed | nothing => rfl

theorem act_veil (a : Action) : (m.act a).veil server = (m.veil server).act a.veil := by
  cases a with
  | start op => exact start_veil ..
  | abort id => exact abort_veil ..
  | dropHandle => exact dropHandle_veil m
  | setDialer | setCloseMode | setClock | elapse => rfl
  | serverPush link frame => exact serverPush_veil ..
  | serverMode link mode => exact updateLink_veil m link fun _ => rfl
  | serverClose link => exact updateLink_veil m link fun _ => rfl
  | serverTake link => exact serverTake_veil ..
  | receive =>
    show m.receive.1.veil server = (m.veil server).receive.1
    rw [received_veil]

/-! ## What can go on -/

theorem readable_veil (link : LinkId) : (m.veil server).readable link = m.readable link := by
  rw [readable, readable, link?_veil]
  cases m.links[link]? <;> rfl

theorem taskEnabled_veil (t : Task) :
    (m.veil server).taskEnabled (t.veil server) = m.taskEnabled t := by
  obtain ⟨id, role, position, aborted⟩ := t
  unfold taskEnabled
  congr 1
  cases position with
  | start | discarding | installing => rfl
  | tearing td stage => cases stage <;> rfl
  | dialing g url deadline stage => cases stage <;> rfl
  | exchanging x stage => cases role <;> rfl
  | reading =>
    cases role with
    | reader g link => exact congrArg (m.isCancelled g || ·) (readable_veil ..)
    | operation | heartbeat => rfl
  | ticking ticker => cases role <;> rfl
  | probing ticker x stage =>
    cases role with
    | heartbeat g => exact congrArg (m.isCancelled g || ·) (exchangeReady_veil ..)
    | operation | reader => rfl

theorem workers_veil : (m.veil server).workers = m.workers := by
  simp only [workers, veil, List.map_map]
  rfl

theorem enabled_veil (w : Worker) : (m.veil server).enabled w = m.enabled w := by
  cases w with
  | task id =>
    rw [enabled, enabled, task?_veil]
    cases m.task? id with
    | none => rfl
    | some t => exact taskEnabled_veil ..
  | forwarder i => rfl

theorem quiet_veil : (m.veil server).quiet = m.quiet := by
  simp only [quiet, workers_veil, enabled_veil]

theorem taskDeadlines_veil (t : Task) : taskDeadlines (t.veil server) = taskDeadlines t := by
  obtain ⟨id, role, position, aborted⟩ := t
  cases position with
  | dialing g url deadline stage => cases stage <;> rfl
  | tearing td stage => cases stage <;> rfl
  | start | installing | discarding | exchanging | reading | ticking | probing => rfl

theorem deadlines_veil : (m.veil server).deadlines = m.deadlines := by
  simp only [deadlines, veil, List.flatMap_map, taskDeadlines_veil]
  rfl

theorem permits_veil (a : Action) : (m.veil server).permits a.veil = m.permits a := by
  have hpresent : ∀ link, (m.veil server).serverPresent link = m.serverPresent link := by
    intro link
    rw [serverPresent, serverPresent, link?_veil]
    cases m.links[link]? <;> rfl
  cases a with
  | elapse ms =>
    simp only [permits, Action.veil, mayElapse, quiet_veil, deadlines_veil, veil_now]
    rfl
  | serverPush | serverMode | serverClose | serverTake => exact hpresent _
  | abort id =>
    simp only [permits, Action.veil, task?_veil, Option.any_map]
    congr 1
    funext t
    exact t.veil_isOperation
  | start | dropHandle | setDialer | setCloseMode | setClock | receive => rfl

/-! ## Moves and runs -/

theorem allows_veil (v : Move) : (m.veil server).allows v.veil = m.allows v := by
  cases v with
  | work w => exact enabled_veil ..
  | act a => exact permits_veil ..

theorem run_veil (hm : m.settings.server = server) (w : Worker) :
    (m.run w).veil server = (m.veil server).run w := by
  cases w with
  | task id =>
    rw [run, run, task?_veil]
    cases m.task? id with
    | none => rfl
    | some t => exact runTask_veil _ hm t
  | forwarder i =>
    simp only [run, veil_handler]
    cases m.handler with
    | direct => rfl
    | channel c => exact logAll_veil _ _

theorem after_veil (hm : m.settings.server = server) (v : Move) :
    (m.after v).veil server = (m.veil server).after v.veil := by
  cases v with
  | work w => exact run_veil _ hm w
  | act a => exact act_veil ..

/-- No move touches the settings. -/
theorem settings_after {m : Machine} (hm : Fit m) {v : Move} (h : m.allows v = true) :
    (m.after v).settings = m.settings :=
  (course_after hm h).invariant (I := fun _ n => n.settings = m.settings) rfl
    (fun _ _ _ _ hc hn => hc.settings.trans hn) (fun _ _ _ _ hn => hn)

/-- What a run may count on. -/
theorem Run.kept {start n : Machine} {moves : List Move} (run : Run start moves n)
    (hfit : Fit start) : Fit n ∧ n.settings = start.settings := by
  induction run with
  | nil => exact ⟨hfit, rfl⟩
  | cons run v h ih =>
    obtain ⟨hm, hs⟩ := ih
    exact ⟨fit_invariant.after hm h hm, (settings_after hm h).trans hs⟩

/-- Two clients that are the same under the veil make the same moves and stay the same. -/
theorem Run.follow {start start' n : Machine} {moves moves' : List Move} (hfit : Fit start)
    (hfit' : Fit start') (hserver : start.settings.server = server)
    (hstart : start'.veil server = start.veil server)
    (hmoves : moves'.map Move.veil = moves.map Move.veil) (run : Run start moves n) :
    ∃ n', Run start' moves' n' ∧ n'.veil server = n.veil server := by
  have hserver' : start'.settings.server = server :=
    (congrArg (fun m : Machine => m.settings.server) hstart).trans hserver
  -- along the first run; the second one is built move by move
  induction run generalizing moves' with
  | nil =>
    obtain rfl := List.map_eq_nil_iff.mp hmoves
    exact ⟨start', .nil, hstart⟩
  | @cons moves m run v h ih =>
    obtain ⟨v', rest, rfl, hv, hrest⟩ := List.map_eq_cons_iff.mp hmoves
    obtain ⟨m', run', hm⟩ := ih hrest
    have hallows : m'.allows v' = true := by
      rw [← @allows_veil server m' v', hm, hv, allows_veil, h]
    refine ⟨m'.after v', .cons run' v' hallows, ?_⟩
    have hms : m.settings.server = server := by rw [(run.kept hfit).2, hserver]
    have hms' : m'.settings.server = server := by rw [(run'.kept hfit').2, hserver']
    rw [after_veil m' hms', after_veil m hms, hm, hv]

end Machine
end GameLink.Client
