import GameLink.Proofs.Client.Onward
import GameLink.Proofs.Client.Reasons
import GameLink.Proofs.Client.Replay
import GameLink.Proofs.Client.Watch

/-! # Calls that outlast their bound

The bound of a request, and the interval of a heartbeat for its probe, limit the
wait for the reply, and that only begins when the frame is written. A call that
is not over when its time is up is still at the writer, or has been written at
that very moment; and the writer takes at most one send timeout for each call
ahead and one for the call itself (`calls_outlast`).
-/
namespace GameLink.Client

/-- The exchange that a task carries out, and where it is. -/
def Task.exchange? (t : Task) : Option (Exchange × ExchangeStage) :=
  match t.position with
  | .exchanging x stage | .probing _ x stage => some (x, stage)
  | _ => none

/-- When whoever made a call at `made` expects its end. -/
def Role.due (s : Settings) (made : Nat) : Role → Nat
  | .operation (.request _ (.within ms)) => made + ms
  | .operation (.request _ (.until moment)) => max made moment.toNat
  | .operation _ => made + s.realtime.requestTimeout.toNat
  | .heartbeat _ => made + s.realtime.heartbeatInterval.toNat
  | .reader _ _ => made

theorem Host.due_eq (host : Host) (m : Machine) :
    m.now + host.bound m = host.role.due m.settings m.now := by
  cases host with
  | heartbeat g k => rfl
  | operation op =>
    cases op with
    | request message bound =>
      cases bound with
      | «until» moment =>
        simp only [bound, Machine.boundMs, role, Role.due]
        omega
      | _ => rfl
    | _ => rfl

theorem Host.exchange_of_position {t : Task} {host : Host} {x : Exchange} {stage : ExchangeStage}
    (h : t.position = host.position x stage) : t.exchange? = some (x, stage) := by
  unfold Task.exchange?
  rw [h]
  cases host <;> rfl

/-- The time for a reply ends at a moment that the clock does not skip. -/
theorem deadline_of_exchange {t : Task} {x : Exchange} {k : Ticket}
    (he : t.exchange? = some (x, .awaiting)) (hk : x.ticket = some k) :
    k.registeredAt + x.timeout ∈ Machine.taskDeadlines t := by
  unfold Task.exchange? at he
  unfold Machine.taskDeadlines
  split at he
  · rename_i hp
    cases he
    rw [hp]
    simp [Machine.exchangeDeadlines, hk, Registry.deadline]
  · rename_i hp
    cases he
    rw [hp]
    simp [Machine.exchangeDeadlines, hk, Registry.deadline]
  · cases he

/-! ## Calls under way -/

/-- What was observed of a call of task `i` under the ticket `k` that is not over. -/
structure UnderWay (rs : List Record) (m : Machine) (i : TaskId) (r : Role) (x : Exchange)
    (stage : ExchangeStage) (k : Ticket) : Prop where
  issued : ⟨k.registeredAt, .issued i k.cid⟩ ∈ rs
  started : ∀ op, r = .operation op → ⟨k.registeredAt, .started i op⟩ ∈ rs
  due : k.registeredAt + x.timeout = r.due m.settings k.registeredAt
  written : stage = .awaiting → ∃ link w, ⟨w, .wrote i link (Machine.frameOf x)⟩ ∈ rs ∧
    w ≤ m.now ∧ m.now ≤ max (k.registeredAt + x.timeout) w

/-- Who is about to start was started at this moment, and every call under way shows. -/
structure Dated (rs : List Record) (m : Machine) (i : TaskId) (t : Task) : Prop where
  fresh : t.position = .start → ∀ op, t.role = .operation op → ⟨m.now, .started i op⟩ ∈ rs
  call : ∀ x stage k, t.exchange? = some (x, stage) → x.ticket = some k →
    UnderWay rs m i t.role x stage k

section
variable {m n : Machine} {t u : Task} {os : List Observation} {rs rs' : List Record} {i : TaskId}

theorem UnderWay.later {r : Role} {x : Exchange} {stage : ExchangeStage} {k : Ticket}
    (h : UnderWay rs m i r x stage k) (hs : n.settings = m.settings) (hn : n.now = m.now)
    (stage' : ExchangeStage) (hstage : stage' = .awaiting → stage = .awaiting) :
    UnderWay (rs ++ rs') n i r x stage' k := by
  refine ⟨List.mem_append_left _ h.issued, ?_, hs ▸ h.due, ?_⟩
  · exact fun op hop => List.mem_append_left _ (h.started op hop)
  · intro hw
    obtain ⟨link, w, hmem, hle⟩ := h.written (hstage hw)
    exact ⟨link, w, List.mem_append_left _ hmem, hn ▸ hle⟩

/-- A position that is no exchange, and is not the start, has nothing to show. -/
theorem Dated.plain (hp : u.position ≠ .start) (hx : u.exchange? = none) : Dated rs m i u :=
  ⟨fun h => absurd h hp, fun _ _ _ h => nomatch hx.symm.trans h⟩

/-- Where time passes nobody is about to start, and no reply is waited for beyond its time. -/
theorem Dated.elapse (hm : Fit m) (ht : m.task? t.id = some t) {ms : Nat}
    (h : m.mayElapse ms = true) (hd : Dated rs m t.id t) :
    Dated rs { m with now := m.now + ms } t.id t := by
  refine ⟨?_, ?_⟩
  · intro hp
    rw [Machine.mayElapse, Bool.and_eq_true] at h
    have idle := quiet_task h.1 ht
    rw [Machine.taskEnabled, hp, Bool.or_eq_false_iff] at idle
    cases hr : t.role <;> rw [hr] at idle <;> cases idle.2
  · intro x stage k he hk
    obtain ⟨issued, started, due, written⟩ := hd.call x stage k he hk
    refine ⟨issued, started, due, ?_⟩
    intro hs
    obtain ⟨link, w, hmem, hle, _⟩ := written hs
    have := (mayElapse_le hm h ht (deadline_of_exchange (hs ▸ he) hk)).2
    exact ⟨link, w, hmem, by simp only; omega, by simp only; omega⟩

/-- What goes on in a change in which no time passes. -/
theorem Dated.goes (ht : t.id = i) (hn : n.now = m.now) (hs : n.settings = m.settings)
    (hd : Dated rs m i t) (h : Goes m os t u) :
    Dated (rs ++ os.map (Record.mk m.now)) n i u := by
  have mem : ∀ {r : Record}, r ∈ rs → r ∈ rs ++ os.map (Record.mk m.now) :=
    List.mem_append_left _
  have new : ∀ {o : Observation}, o ∈ os → ⟨m.now, o⟩ ∈ rs ++ os.map (Record.mk m.now) :=
    fun ho => List.mem_append_right _ (List.mem_map.mpr ⟨_, ho, rfl⟩)
  obtain ⟨hrole, hpos | hon⟩ := h
  · have hx : u.exchange? = t.exchange? := by rw [Task.exchange?, Task.exchange?, hpos]
    refine ⟨?_, ?_⟩
    · intro hp op hop
      rw [hn]
      exact mem (hd.fresh (hpos ▸ hp) op (hrole ▸ hop))
    · intro x stage k he hk
      rw [hrole]
      exact (hd.call x stage k (hx ▸ he) hk).later hs hn stage id
  · generalize hp : u.position = p at hon
    -- an exchange that goes on to `stage` shows what it showed before, and its write
    have onward : ∀ (host : Host) (x : Exchange) (stage : ExchangeStage),
        p = host.position x stage → (∀ k, x.ticket = some k →
          UnderWay (rs ++ os.map (Record.mk m.now)) n i t.role x stage k) →
        Dated (rs ++ os.map (Record.mk m.now)) n i u := by
      intro host x stage he hw
      refine ⟨fun h => absurd (hp.symm.trans h) (he ▸ host.position_ne_start), ?_⟩
      intro x' stage' k hx hk
      cases (Host.exchange_of_position (hp.trans he)).symm.trans hx
      exact hrole ▸ hw k hk
    cases hon with
    | sends op message hr hps hq hs' =>
      exact onward (.operation op) _ .queued rfl fun k hk => nomatch hk
    | asks host x hh hx hs' hb =>
      refine onward host x .queued rfl fun k hk => ?_
      cases hx.symm.trans hk
      refine ⟨ht ▸ new (.head _), ?_, ?_, fun h => nomatch h⟩
      · intro op hop
        cases host with
        | operation op' => exact mem (hd.fresh hh.2.1 op hop)
        | heartbeat g k =>
          obtain ⟨_, hr, _⟩ := hh
          cases hr.symm.trans hop
      · show m.now + x.timeout = t.role.due n.settings m.now
        rw [hs, hh.role_eq, hb]
        exact host.due_eq m
    | stalls host x hr hpt hl =>
      refine onward host x _ rfl fun k hk => ?_
      exact (hd.call x .queued k (Host.exchange_of_position hpt) hk).later hs hn _
        fun h => nomatch h
    | writes host x link hr hpt hl =>
      refine onward host x _ rfl fun k hk => ?_
      obtain ⟨issued, started, due, _⟩ := hd.call x .queued k (Host.exchange_of_position hpt) hk
      refine ⟨mem issued, fun op hop => mem (started op hop), hs ▸ due, fun _ => ?_⟩
      exact ⟨link, m.now, ht ▸ new (.head _), Nat.le_of_eq hn.symm, hn ▸ Nat.le_max_right _ _⟩
    | _ => exact .plain (by rw [hp]; simp) (by rw [Task.exchange?, hp])

theorem Dated.keep (hm : Fit m) (h : Change m os n)
    (hd : ∀ i t, m.task? i = some t → Dated rs m i t) (hu : n.task? i = some u) :
    Dated (rs ++ os.map (Record.mk m.now)) n i u := by
  rcases h.clock with hn | ⟨ms, hms, rfl, rfl⟩
  · rcases h.origin hu with ⟨t, ht, hg⟩ | ⟨_, hp, hs⟩
    · exact (hd i t ht).goes (findTask_id ht) hn h.settings hg
    · refine ⟨fun _ op hop => ?_, fun x stage k he => ?_⟩
      · rw [hn]
        exact List.mem_append_right _ (List.mem_map.mpr ⟨_, hs op hop, rfl⟩)
      · rw [Task.exchange?, hp] at he
        cases he
  · have hu : m.task? i = some u := hu
    obtain rfl := findTask_id hu
    rw [List.map_nil, List.append_nil]
    exact (hd u.id u hu).elapse hm hu hms

end

namespace Machine

variable {may : Move → Prop} {m : Machine} {i : TaskId} {t : Task}

theorem Reachable.dated (hm : m.Reachable may) (ht : m.task? i = some t) :
    Dated (observed m.history) m i t := by
  refine hm.kept (I := fun rs m => ∀ i t, m.task? i = some t → Dated rs m i t) fit_invariant
    ?_ ?_ ?_ i t ht
  · intro m h
    obtain ⟨_, _, _, _, rfl⟩ := h.fields
    exact fun _ _ h => nomatch h
  · exact fun m os n rs h hf hd i u hu => Dated.keep hf h hd hu
  · intro rs n handler history h i t ht
    obtain ⟨fresh, call⟩ := h i t ht
    refine ⟨fresh, fun x stage k he hk => ?_⟩
    obtain ⟨issued, started, due, written⟩ := call x stage k he hk
    exact ⟨issued, started, due, written⟩

end Machine

/-! ## How much later -/

/-- The call of task `i` under the ticket `k` leaves the queue by `limit`, and is then over when its
time is up. -/
structure Awaited (i : TaskId) (k : Ticket) (limit : Nat) (rs : List Record) (m : Machine) :
    Prop where
  issued : .issued i k.cid ∈ rs.map Record.what
  queued : ∀ t x stage, m.task? i = some t → t.exchange? = some (x, stage) → x.ticket = some k →
    stage ≠ .awaiting → m.watch.Due i limit
  sent : ∀ t x, m.task? i = some t → t.exchange? = some (x, .awaiting) → x.ticket = some k →
    m.now ≤ max (k.registeredAt + x.timeout) limit

/-- What the limits lean on: the queue and the ids. -/
def Timed (tr : List Observation) (m : Machine) : Prop :=
  ((Fit m ∧ (m.line tr).Ranked ∧ (m.line tr).Voiced) ∧ m.watch.Kept ∧ (m.line tr).Listed) ∧
    (((Fit m ∧ (m.life tr).Sound) ∧ Fit m ∧ Errands tr m) ∧ (m.ledger tr).Numbered)

theorem timed_invariant : Invariant Timed :=
  watch_invariant.both
    (Ledger.invariant (fun _ h => h.numbered) (fun _ _ h hc => hc.keep h))

section
variable {m n : Machine} {t u : Task} {os tr : List Observation} {rs : List Record} {i : TaskId}

theorem stances_of_exchange {x : Exchange} {stage : ExchangeStage}
    (he : t.exchange? = some (x, stage)) : stances t.role t.position = some (x.stance stage) := by
  unfold Task.exchange? at he
  split at he
  · rename_i hp
    cases he
    rw [hp]
    rfl
  · rename_i hp
    cases he
    rw [hp]
    rfl
  · cases he

/-- A call stands in line as long as it is not written. -/
theorem inLine_iff (ht : m.task? i = some t) {x : Exchange} {stage : ExchangeStage}
    (he : t.exchange? = some (x, stage)) : (m.line tr).InLine i ↔ stage ≠ .awaiting := by
  have stance : (m.line tr).stances i = some (x.stance stage) :=
    view_eq_some.mpr ⟨t, ht, stances_of_exchange he⟩
  rw [Line.InLine, stance]
  cases stage with
  | awaiting => exact ⟨fun ⟨_, h⟩ => (nomatch h), fun h => absurd rfl h⟩
  | _ => exact ⟨fun _ => ExchangeStage.noConfusion, fun _ => ⟨_, rfl⟩⟩

/-- A call under a ticket that is not new was under way before, as it is now or before its write. -/
theorem Goes.exchange (h : Goes m os t u) (hn : (m.ledger tr).Numbered) {x : Exchange}
    {stage : ExchangeStage} (he : u.exchange? = some (x, stage)) {k : Ticket}
    (hk : x.ticket = some k) (hi : .issued i k.cid ∈ tr) :
    ∃ stage', t.exchange? = some (x, stage') ∧
      (stage' = stage ∨ stage' ≠ .awaiting ∧ m.holdsLock t.id = true) := by
  obtain ⟨_, hpos | hon⟩ := h
  · exact ⟨stage, by rwa [Task.exchange?, ← hpos], .inl rfl⟩
  · generalize hp : u.position = p at hon
    -- a call that goes on was in the queue and holds the writer
    have before : ∀ (host : Host) (y : Exchange) (next : ExchangeStage),
        p = host.position y next → t.position = host.position y .queued →
        m.holdsLock t.id = true → ∃ stage', t.exchange? = some (x, stage') ∧
          (stage' = stage ∨ stage' ≠ .awaiting ∧ m.holdsLock t.id = true) := by
      intro host y next hq hpt hl
      cases (Host.exchange_of_position (hp.trans hq)).symm.trans he
      exact ⟨.queued, Host.exchange_of_position hpt, .inr ⟨ExchangeStage.noConfusion, hl⟩⟩
    cases hon with
    | sends op message hr hpt hq hs =>
      rw [Task.exchange?, hp] at he
      cases he
      cases hk
    | asks host y hh hy hs hb =>
      cases (Host.exchange_of_position hp).symm.trans he
      cases hy.symm.trans hk
      have given : (i, m.registry.nextCid) ∈ issues (deals tr) := by
        rw [issues_deals, mem_issues]
        exact hi
      exact absurd given hn.fresh
    | stalls host y hr hpt hl => exact before host y _ rfl hpt hl
    | writes host y link hr hpt hl => exact before host y _ rfl hpt hl
    | _ =>
      rw [Task.exchange?, hp] at he
      cases he

theorem Awaited.keep {k : Ticket} {limit : Nat} (hm : Timed (rs.map Record.what) m)
    (h : Change m os n) (ha : Awaited i k limit rs m) :
    Awaited i k limit (rs ++ os.map (Record.mk m.now)) n := by
  obtain ⟨⟨⟨hf, ranked, _⟩, kept, listed⟩, _, numbered⟩ := hm
  have inQueue : ∀ u x stage, n.task? i = some u → u.exchange? = some (x, stage) →
      stage ≠ .awaiting → i ∈ n.lockQueue := by
    intro u x stage hu he hs
    have step : Line.Step (m.line (rs.map Record.what)) (n.line (rs.map Record.what ++ os)) :=
      h.line hf
    exact listed.keep step i ((inLine_iff hu he).mpr hs)
  have old : ∀ u x stage, n.task? i = some u → u.exchange? = some (x, stage) →
      x.ticket = some k → ∃ t stage', m.task? i = some t ∧ t.exchange? = some (x, stage') ∧
        (stage' = stage ∨ stage' ≠ .awaiting) := by
    intro u x stage hu he hk
    rcases h.origin hu with ⟨t, ht, hg⟩ | ⟨_, hp, _⟩
    · obtain ⟨stage', he', hs⟩ := hg.exchange numbered he hk ha.issued
      exact ⟨t, stage', ht, he', hs.imp_right And.left⟩
    · rw [Task.exchange?, hp] at he
      cases he
  refine ⟨?_, ?_, ?_⟩
  · rw [List.map_append]
    exact List.mem_append_left _ ha.issued
  · intro u x stage hu he hk hs
    obtain ⟨t, stage', ht, he', same⟩ := old u x stage hu he hk
    have due : m.watch.Due i limit := ha.queued t x stage' ht he' hk (by
      rcases same with rfl | hne
      · exact hs
      · exact hne)
    exact (due.keep kept (h.watch hf ranked)).resolve_left fun hq =>
      hq (inQueue u x stage hu he hs)
  · intro u x hu he hk
    rcases h.clock with hn | ⟨ms, hms, rfl, rfl⟩
    · obtain ⟨t, stage', ht, he', rfl | hne⟩ := old u x .awaiting hu he hk
      · exact hn ▸ ha.sent t x ht he' hk
      · have due : m.watch.Due i limit := ha.queued t x stage' ht he' hk hne
        exact hn ▸ Nat.le_trans (due.now_le kept) (Nat.le_max_right _ _)
    · have hu : m.task? i = some u := hu
      obtain rfl := findTask_id hu
      have waits : k.registeredAt + x.timeout ∈ Machine.taskDeadlines u :=
        deadline_of_exchange he hk
      exact Nat.le_trans (mayElapse_le hf hms hu waits).2 (Nat.le_max_left _ _)

end

namespace Machine

variable {may : Move → Prop} {m n : Machine} {i : TaskId} {t u : Task}

/-- Requests and probes that are not over, against the time that their callers gave them. -/
structure Paced (may : Move → Prop) (m : Machine) : Prop where
  requests : ∀ i t op, m.task? i = some t → t.role = .operation op → op.requests = true →
    (t.position = .start ∧ ⟨m.now, .started i op⟩ ∈ observed m.history) ∨
      ∃ x stage k, t.position = .exchanging x stage ∧ x.ticket = some k ∧
        UnderWay (observed m.history) m i t.role x stage k
  probes : ∀ i t ticker x stage, m.task? i = some t → t.position = .probing ticker x stage →
    ∃ k, x.ticket = some k ∧ UnderWay (observed m.history) m i t.role x stage k
  /-- Whoever is late is still at the writer, or was written at this moment. -/
  late : ∀ i t x stage k, m.task? i = some t → t.exchange? = some (x, stage) →
    x.ticket = some k → t.role.due m.settings k.registeredAt < m.now →
      stage ≠ .awaiting ∨
        ∃ link, ⟨m.now, .wrote i link (Machine.frameOf x)⟩ ∈ observed m.history
  /-- Each call ahead at the writer, and the call itself, takes a send timeout at most. -/
  limited : ∀ i t x stage k ahead behind, m.task? i = some t → t.exchange? = some (x, stage) →
    x.ticket = some k → m.lockQueue = ahead ++ i :: behind → ∀ n, Reaches may m n →
      ∀ u y next, n.task? i = some u → u.exchange? = some (y, next) → y.ticket = some k →
        n.now ≤ max (u.role.due n.settings k.registeredAt)
          (m.now + (ahead.length + 1) * m.settings.realtime.sendTimeout.toNat)

/-- No request and no probe is unfinished after the time that it was given. -/
def InTime (m : Machine) : Prop :=
  (∀ i t op made, m.task? i = some t → t.role = .operation op → op.requests = true →
    ⟨made, .started i op⟩ ∈ m.history → m.now ≤ t.role.due m.settings made) ∧
  ∀ i t ticker x stage k, m.task? i = some t → t.position = .probing ticker x stage →
    x.ticket = some k → m.now ≤ t.role.due m.settings k.registeredAt

section
variable (hm : m.Reachable may)
include hm

theorem Reachable.under_way (ht : m.task? i = some t) {x : Exchange} {stage : ExchangeStage}
    (he : t.exchange? = some (x, stage)) {k : Ticket} (hk : x.ticket = some k) :
    UnderWay (observed m.history) m i t.role x stage k := (hm.dated ht).call x stage k he hk

theorem Reachable.request_begun {op : Operation} (ht : m.task? i = some t)
    (hr : t.role = .operation op) (hq : op.requests = true) :
    (t.position = .start ∧ ⟨m.now, .started i op⟩ ∈ observed m.history) ∨
      ∃ x stage k, t.position = .exchanging x stage ∧ x.ticket = some k ∧
        UnderWay (observed m.history) m i t.role x stage k := by
  have hf := hm.fit.fits i t ht
  have silent : ∀ {o : Operation}, t.role = .operation o → o.message? = none → False := by
    intro o ho hmsg
    cases hr.symm.trans ho
    rw [Operation.requests_eq_false hmsg] at hq
    cases hq
  generalize hrole : t.role = r at hf
  generalize hp : t.position = p at hf
  cases hf with
  | start => exact .inl ⟨rfl, (hm.dated ht).fresh hp op hr⟩
  | @exchanging o x stage hx hmsg =>
    cases hr.symm.trans hrole
    obtain ⟨k, hk⟩ := Option.isSome_iff_exists.mp (hx.trans hq)
    have he : t.exchange? = some (x, stage) := by rw [Task.exchange?, hp]
    exact .inr ⟨x, stage, k, rfl, hk, hrole ▸ hm.under_way ht he hk⟩
  | dialing hmsg => exact (silent hrole hmsg).elim
  | installing hmsg => exact (silent hrole hmsg).elim
  | discarding hmsg => exact (silent hrole hmsg).elim
  | closing => exact (silent hrole rfl).elim
  | _ => cases hr.symm.trans hrole

theorem Reachable.late (ht : m.task? i = some t) {x : Exchange} {stage : ExchangeStage}
    (he : t.exchange? = some (x, stage)) {k : Ticket} (hk : x.ticket = some k)
    (hd : t.role.due m.settings k.registeredAt < m.now) :
    stage ≠ .awaiting ∨
      ∃ link, ⟨m.now, .wrote i link (frameOf x)⟩ ∈ observed m.history := by
  have call := hm.under_way ht he hk
  by_cases hs : stage = .awaiting
  · obtain ⟨link, w, hw, hle, hmax⟩ := call.written hs
    have now : w = m.now := by
      have := call.due
      omega
    exact .inr ⟨link, now ▸ hw⟩
  · exact .inl hs

theorem Reachable.awaited (ht : m.task? i = some t) {x : Exchange} {stage : ExchangeStage}
    (he : t.exchange? = some (x, stage)) {k : Ticket} (hk : x.ticket = some k)
    {ahead behind : List TaskId} (hq : m.lockQueue = ahead ++ i :: behind) :
    Awaited i k (m.now + (ahead.length + 1) * m.settings.realtime.sendTimeout.toNat)
      (observed m.history) m := by
  refine ⟨List.mem_map.mpr ⟨_, (hm.under_way ht he hk).issued, rfl⟩, ?_, ?_⟩
  · exact fun _ _ _ _ _ _ _ => hm.watch.due_of_append hq
  · intro u y hu hy _
    have queued : i ∈ m.lockQueue := hq ▸ List.mem_append_right _ (.head _)
    exact absurd rfl ((inLine_iff hu hy).mp (hm.ranked.queued i queued))

/-- A call can outlast the time that its caller gave it only at the writer, where it and everybody
ahead of it takes a send timeout at most. -/
theorem calls_outlast : Paced may m where
  requests _ _ _ ht hr hq := hm.request_begun ht hr hq
  probes i t ticker x stage ht hp := by
    have hf := hm.fit.fits i t ht
    rw [hp] at hf
    generalize hr : t.role = r at hf
    cases hf with
    | probing h hmsg =>
      obtain ⟨k, hk⟩ := Option.isSome_iff_exists.mp h
      have he : t.exchange? = some (x, stage) := by rw [Task.exchange?, hp]
      exact ⟨k, hk, hr ▸ hm.under_way ht he hk⟩
  late _ _ _ _ _ ht he hk hd := hm.late ht he hk hd
  limited i t x stage k ahead behind ht he hk hq n hmn u y next hu hy hk' := by
    have hn := Reachable.reaches hm hmn
    have kept := hmn.kept hm timed_invariant (fun _ _ _ _ hc hj ha => Awaited.keep hj hc ha)
      (fun _ _ _ _ h => ⟨h.issued, h.queued, h.sent⟩) (hm.awaited ht he hk hq)
    have call := hn.under_way hu hy hk'
    by_cases hnext : next = .awaiting
    · subst hnext
      exact call.due ▸ kept.sent u y hu hy hk'
    · have due : n.watch.Due i _ := kept.queued u y next hu hy hk' hnext
      exact Nat.le_trans (due.now_le hn.watch) (Nat.le_max_right _ _)

end

/-- The server lets the writer stall, and a request that may take fifty milliseconds meets it. -/
def belated : List Move :=
  opening 0 ++ [.work (.task 1), .work (.task 2), .act (.serverMode 0 .stall)] ++
    steps 3 2 (.request .ping (.within 50)) ++ [.act (.elapse 51)]

theorem outlast_belated : Paced (fun _ => True) (fresh.replay belated) :=
  calls_outlast (reachable_replay (by decide +kernel))

/-- The server stalls, and a request that was given fifty milliseconds is not over after them. -/
theorem late_belated :
    (fresh.replay belated).Reachable (fun _ => True) ∧ ¬ (fresh.replay belated).InTime := by
  refine ⟨reachable_replay (by decide +kernel), fun h => ?_⟩
  have made : ⟨0, .started 3 (.request .ping (.within 50))⟩ ∈ (fresh.replay belated).history :=
    List.mem_of_getElem? (i := 1) rfl
  have bound : 51 ≤ 50 := h.1 3 _ _ 0 rfl rfl rfl made
  exact absurd bound (by decide)

end Machine

end GameLink.Client
