import FloorHeating.Visit

/-!
# The list of events follows the status

The firmware goes on while calls are on their way. Each answer is of some time
of its boot, and a load that begins when a status has come is of a later one.
-/

open FloorHeating.Lib FloorHeating.Account FloorHeating.MachineRun FloorHeating.Documents FloorHeating.AppPage
  FloorHeating.Http FloorHeating.PageVisit

namespace FloorHeating.Reload

/-! ## One boot of the firmware -/

theorem moved_sections {m m' : Machine} {a : Move} (hm : Moved m a m') (hup : a.isReboot = false) :
    ∃ secs, m'.task.control = run Section.exec m.task.control secs := by
  cases hm with
  | decides top_s now_s read for_sensor date hpc =>
    refine ⟨[.task for_sensor (settings_get m.store) date now_s (read.map (·.map Int16.toInt))], ?_⟩
    rw [decision_control]
    rfl
  | stores now_s read on hpc => exact ⟨[], sampled_control m now_s read on⟩
  | serves method uri env req hfree =>
    dsimp only
    rcases serve_effect method uri { env with now_s := m.clock } m.toFirmware req with
      hsame | ⟨-, manual, d, who, hpump⟩ | ⟨in_out, hset⟩
    · rw [hsame]
      exact ⟨[], rfl⟩
    · refine ⟨[.command (settings_get m.store) env.date m.clock manual d who], ?_⟩
      rw [hpump]
      rfl
    · rw [hset]
      exact ⟨[], rfl⟩
  | reboots boot => cases hup
  | _ => exact ⟨[], rfl⟩

theorem moved_log {m m' : Machine} {a : Move} (hm : Moved m a m') (hup : a.isReboot = false)
    (hsplit : m.log ++ m.pending = m.task.control.published) : m.log <+: m'.log := by
  have hidle {m' : Machine} (hbefore : m.pending = []) (hafter : m'.pending = [])
      (hcontrol : m'.task.control = m.task.control) : m.log <+: m'.log := by
    rw [log_idle hbefore, log_idle hafter, hcontrol]
  cases hm with
  | still _ ha | tick d | copies hfree | stamps i c hc | sends i unix system c hc => exact List.prefix_refl _
  | samples hpc hdue | rests hpc hnot | senses top_s bus hpc | locks top_s now_s read hpc
  | unlocks now_s read hpc => exact hidle (by rw [Machine.pending, hpc]) rfl rfl
  | stores now_s read on hpc => exact hidle (by rw [Machine.pending, hpc]) rfl (sampled_control m now_s read on)
  | decides top_s now_s read for_sensor date hpc =>
    rw [log_decision date hpc]
  | publishes now_s read e pending hpc =>
    rw [log_publish hsplit hpc]
    exact List.prefix_append _ _
  | serves method uri env req hfree =>
    rcases serve_effect method uri { env with now_s := m.clock } m.toFirmware req with
      hsame | ⟨huri, manual, d, who, hpump⟩ | ⟨in_out, hset⟩
    · rw [hsame]
    · have hlock : m.s_lock = false := by simpa [Machine.blocks, huri] using hfree
      have hbefore := pending_free hlock
      have hgrows := published_exec m.task.control (.command (settings_get m.store) env.date m.clock manual d who)
      rw [hpump, log_idle hbefore, log_idle (by exact hbefore)]
      exact ⟨_, hgrows.symm⟩
    · rw [hset]
      exact List.prefix_refl _
  | reboots boot => cases hup

theorem served_step {m : Machine} {f : Flight} (hfree : m.blocks f.call.uri = false) (env : HttpEnv)
    (client_ip : String) :
    ({ m with toFirmware := (served m f env client_ip).1 } : Machine) =
      m.step (.request f.call.method f.call.uri env (f.call.request client_ip)) := by
  change _ = if m.blocks f.call.uri then m else _
  rw [hfree]
  rfl

theorem send_machine (v : Visit) (call : Option App.Call) : (v.send call).machine = v.machine := by
  unfold Visit.send
  split <;> rfl

theorem ends_machine (v : Visit) (i : Nat) (f : Flight) (doc : Option Json) : (v.ends i f doc).machine = v.machine := by
  unfold Visit.ends
  dsimp only
  rw [send_machine]

theorem takes_machine (v : Visit) (f : Flight) (a : Answer) : (v.takes f a).machine = v.machine := by
  unfold Visit.takes
  split <;> rfl

theorem send_other (v : Visit) {call : App.Call} (h : call ≠ .loadEvents) :
    v.send (some call) = { v with flights := v.flights ++ [⟨call, v.loads, .sent⟩] } := by
  cases call with
  | loadEvents => exact absurd rfl h
  | refresh | command _ | saveSettings _ => rfl

/-! ## What the answers say -/

/-- A status is of statics that are `told`, and a list of the events that were in the ring. -/
def AnswerSays (told : Control → Prop) (call : App.Call) (a : Answer) (doc : Json) : Prop :=
  match call with
  | .loadEvents => ∃ events, App.readEvents doc = some events ∧ ListOf a.log (events.map App.eventItem)
  | _ => told a.control ∧ ∃ st, App.Status.read doc = some (AppPage.statusOf a.control st)

def FlightSays (told : Control → Prop) (f : Flight) : Prop :=
  match f.progress with
  | .sent => True
  | .handled => f.call ≠ .loadEvents
  | .answered a => ∀ doc, a.doc = some doc → AnswerSays told f.call a doc

theorem flight_later {told told' : Control → Prop} (ht : ∀ c, told c → told' c) {f : Flight} (h : FlightSays told f) :
    FlightSays told' f := by
  unfold FlightSays AnswerSays at *
  split
  · trivial
  · rename_i hp
    rwa [hp] at h
  · rename_i a hp
    rw [hp] at h
    intro doc hdoc
    have hflight := h doc hdoc
    cases hcall : f.call with
    | loadEvents =>
      rw [hcall] at hflight
      exact hflight
    | refresh | command _ | saveSettings _ =>
      rw [hcall] at hflight
      exact ⟨ht _ hflight.1, hflight.2⟩

theorem pump_plain (to_uint32 : Rat → UInt32) (c : Control) (st : Settings) (date : LocalDate) (now : Int) (body : Json)
    (who status : String) (doc : Json) :
    (FloorHeating.pump_command to_uint32 c st date now body who).2 ≠ .json status doc := by
  rcases pump_command_cases to_uint32 c st date now body who with ⟨status', text, hc⟩ | ⟨m, d, hc⟩
  · rw [hc]
    exact fun h => nomatch h
  · rw [hc]
    unfold Commands.answer
    split <;> exact fun h => nomatch h

theorem settings_plain (to_int16 : Rat → Int) (st : Store) (io : NvsCalls) (body : Json) (status : String)
    (doc : Json) :
    (FloorHeating.apply_settings to_int16 st io body).2 ≠ .json status doc := by
  rw [SettingsPatch.apply_settings_eq]
  dsimp only
  split <;> exact fun h => nomatch h

theorem served_status {m : Machine} {f : Flight} (hcall : f.call ≠ .loadEvents) (env : HttpEnv) (client_ip : String)
    (doc : Json) : (served m f env client_ip).2 ≠ .reply (.json "200 OK" doc) := by
  unfold served
  cases hf : f.call with
  | loadEvents => exact absurd hf hcall
  | refresh => exact fun h => nomatch h
  | command body =>
    change (serve .HTTP_POST "/api/pump" _ _ _).2 ≠ _
    rw [serve_pump rfl rfl]
    exact fun h => pump_plain _ _ _ _ _ _ _ _ _ (Response.reply.inj h)
  | saveSettings patch => exact fun h => settings_plain _ _ _ _ _ _ (Response.reply.inj h)

theorem read_log (events_unix_time : Int → Int) (log : List Event) :
    (log.map (event_json events_unix_time)).mapM App.Event.read = some (log.map (Feed.shown events_unix_time)) := by
  induction log with
  | nil => rfl
  | cons e log ih =>
    rw [List.map_cons, List.mapM_cons, Feed.event_read, ih]
    rfl

theorem events_flight (events_unix_time : Int → Int) {ring r : EventRing} {l : List Event}
    (hring : ring = Events.ringAfter r l) :
    ∃ events, App.readEvents (events_handler events_unix_time ring) = some events ∧
      ListOf l (events.map App.eventItem) := by
  have hread := read_log events_unix_time (l.reverse.take 50)
  refine ⟨_, ?_, events_unix_time, _, hread, rfl⟩
  rw [hring, Events.handler_newest]
  exact hread

theorem handled_flight {hi_api : Response → Option Json} (hapi : HiApi hi_api) {m m' : Machine} {r : EventRing}
    (hring : m.ring = Events.ringAfter r m.log) (f : Flight) (env : HttpEnv) (client_ip : String)
    (hm' : m' = { m with toFirmware := (served m f env client_ip).1 }) (told : Control → Prop) :
    FlightSays told ⟨f.call, f.number, Visit.handled hi_api m' (served m f env client_ip).2⟩ := by
  unfold FlightSays Visit.handled
  cases hcall : f.call with
  | loadEvents =>
    unfold served at hm' ⊢
    rw [hcall] at hm' ⊢
    obtain rfl : m' = m := hm'
    intro doc hdoc
    obtain ⟨-, rfl⟩ := Reply.json.inj (Response.reply.inj ((hapi _ _).mp hdoc))
    exact events_flight _ hring
  | refresh | command _ | saveSettings _ =>
    have hstatus := served_status (m := m) (f := f) (by simp [hcall]) env client_ip
    split
    · trivial
    · rename_i hp
      simp
    · rename_i a hp
      split at hp
      · cases hp
      · cases hp
        intro doc hdoc
        exact absurd ((hapi _ _).mp hdoc) (hstatus doc)

theorem built_flight {hi_api : Response → Option Json} (hapi : HiApi hi_api) {told : Control → Prop} {f : Flight}
    (hcall : f.call ≠ .loadEvents) {c : Control} (hc : told c) (st : Settings) (env : StatusEnv) (log : List Event) :
    FlightSays told ⟨f.call, f.number, .answered ⟨hi_api (.reply (Reply.status.sent c st env)), c, log⟩⟩ := by
  intro doc hdoc
  obtain ⟨-, rfl⟩ := Reply.json.inj (Response.reply.inj ((hapi _ _).mp hdoc))
  have hflight : told c ∧ ∃ st', App.Status.read
      (api_status_json (control_status c env.now_mono_s) st env.events_unix_time env.system) =
        some (AppPage.statusOf c st') := ⟨hc, st, status_read c st env.now_mono_s env.events_unix_time env.system⟩
  unfold AnswerSays
  dsimp only
  cases hf : f.call with
  | loadEvents => exact absurd hf hcall
  | refresh | command _ | saveSettings _ => exact hflight

/-! ## The times of a boot -/

/-- The statics at some time of the boot, after some of its lock sections. -/
def AtTime (boot : Int) (secs : List Section) (c : Control) : Prop := ∃ pre, pre <+: secs ∧ c = controlAfter boot pre

section Times

variable {boot : Int} {secs : List Section} {c c' : Control}

theorem atTime_later (h : AtTime boot secs c) (more : List Section) : AtTime boot (secs ++ more) c := by
  obtain ⟨pre, hpre, hc⟩ := h
  exact ⟨pre, hpre.trans (List.prefix_append _ _), hc⟩

theorem atTime_starts (h : AtTime boot secs c) :
    startsIn c.published ≤ startsIn (controlAfter boot secs).published := by
  obtain ⟨pre, ⟨rest, rfl⟩, rfl⟩ := h
  unfold startsIn
  rw [published_append, logOf_append, List.count_append]
  exact Nat.le_add_right _ _

/-- Two times with the same marker have the same switches behind them, whichever is the earlier one. -/
theorem atTime_marker (h : AtTime boot secs c) (h' : AtTime boot secs c')
    (hfew : startsIn (controlAfter boot secs).published < 2 ^ 32) {st st' : Settings}
    (hmarker : App.marker (AppPage.statusOf c st) = App.marker (AppPage.statusOf c' st')) :
    pumpLog c.published = pumpLog c'.published := by
  have hstarts := atTime_starts h
  have hstarts' := atTime_starts h'
  obtain ⟨pre, hpre, rfl⟩ := h
  obtain ⟨pre', hpre', rfl⟩ := h'
  rcases List.prefix_or_prefix_of_prefix hpre hpre' with ⟨rest, rfl⟩ | ⟨rest, rfl⟩
  · exact (same_marker_quiet hmarker (by omega)).symm
  · exact same_marker_quiet hmarker.symm (by omega)

end Times

/-- The statics at some time of the boot, when the ring had all their events. -/
def Told (boot : Int) (secs : List Section) (log : List Event) (c : Control) : Prop :=
  AtTime boot secs c ∧ c.published <+: log

section Covers

variable {v v' : Visit} {c c' : Control}

theorem covers_fewer (h : v.Covers c) (hloads : v'.loads = v.loads) (hshown : v'.shown = v.shown)
    (hflights : ∀ f ∈ v'.flights, f ∈ v.flights ∨ f.progress = .sent) : v'.Covers c where
  shown := by
    rw [hloads, hshown]
    exact h.shown
  flights f hf hcall hnumber a ha := by
    rcases hflights f hf with hf | hsent
    · exact h.flights f hf hcall (hnumber.trans hloads) a ha
    · rw [hsent] at ha
      cases ha

theorem covers_same (h : v.Covers c) (hlog : pumpLog c'.published = pumpLog c.published) : v.Covers c' where
  shown := by
    rw [hlog]
    exact h.shown
  flights := by
    rw [hlog]
    exact h.flights

/-- The load that begins now will have everything. -/
theorem covers_load (hflights : ∀ f ∈ v.flights, f.number ≤ v.loads)
    (hshown : ∀ n log, v.shown = some (n, log) → n ≤ v.loads) (c : Control) : (v.send (some .loadEvents)).Covers c where
  shown log hlog := by
    have hle := hshown _ log hlog
    change v.loads + 1 ≤ v.loads at hle
    omega
  flights f hf hcall hnumber a ha := by
    change f.number = v.loads + 1 at hnumber
    rcases List.mem_append.mp hf with hf | hf
    · have hle := hflights f hf
      omega
    · rw [List.mem_singleton] at hf
      subst hf
      cases ha

end Covers

variable (nvs : Nvs) (ring : EventRing) (boot₀ boot : Int)

structure Sound (secs : List Section) (v : Visit) : Prop where
  machine : ∃ h, v.machine = machineAfter nvs ring boot₀ h
  now : v.machine.task.control = controlAfter boot secs
  numbers : ∀ f ∈ v.flights, f.number ≤ v.loads
  flights : ∀ f ∈ v.flights, FlightSays (Told boot secs v.machine.log) f
  seen : v.page.eventsSeen = "" ∨ ∃ c st, Told boot secs v.machine.log c ∧
    v.page.eventsSeen = App.marker (AppPage.statusOf c st) ∧ v.Covers c
  taken : ∀ c, v.taken = some c → Told boot secs v.machine.log c ∧
    (∃ st, v.page.state = some (AppPage.statusOf c st)) ∧ v.Covers c
  shown : ∀ n log, v.shown = some (n, log) → n ≤ v.loads ∧ ListOf log v.page.events

theorem marker_ne (s : App.Status) : App.marker s ≠ "" := by
  intro hempty
  have hchars := congrArg String.toList hempty
  rw [marker_toList] at hchars
  simp at hchars

section Sound

variable {nvs ring boot₀ boot} {secs : List Section} {v : Visit} (h : Sound nvs ring boot₀ boot secs v)

include h

/-- The firmware stays, no load begins, and calls go or are new. -/
theorem sound_kept {v' : Visit} (hmachine : v'.machine = v.machine) (hloads : v'.loads = v.loads)
    (hflights : ∀ f ∈ v'.flights, f ∈ v.flights ∨ (f.progress = .sent ∧ f.number = v.loads))
    (hseen : v'.page.eventsSeen = v.page.eventsSeen) (hcovers : ∀ c, v.Covers c → v'.Covers c)
    (htaken : ∀ c, v'.taken = some c → Told boot secs v.machine.log c ∧
      (∃ st, v'.page.state = some (AppPage.statusOf c st)) ∧ v'.Covers c)
    (hshown : ∀ n log, v'.shown = some (n, log) → n ≤ v.loads ∧ ListOf log v'.page.events) :
    Sound nvs ring boot₀ boot secs v' := by
  constructor
  · rw [hmachine]
    exact h.machine
  · rw [hmachine]
    exact h.now
  · intro f hf
    rw [hloads]
    rcases hflights f hf with hf | ⟨-, hnumber⟩
    · exact h.numbers f hf
    · exact hnumber.le
  · intro f hf
    rw [hmachine]
    rcases hflights f hf with hf | ⟨hsent, -⟩
    · exact h.flights f hf
    · unfold FlightSays
      rw [hsent]
      trivial
  · rw [hseen, hmachine]
    exact h.seen.imp_right fun ⟨c, st, hc, hmarker, hall⟩ => ⟨c, st, hc, hmarker, hcovers c hall⟩
  · rw [hmachine]
    exact htaken
  · rw [hloads]
    exact hshown

theorem sound_page {v' : Visit} (hmachine : v'.machine = v.machine) (hloads : v'.loads = v.loads)
    (htaken : v'.taken = v.taken) (hshown : v'.shown = v.shown)
    (hflights : ∀ f ∈ v'.flights, f ∈ v.flights ∨ (f.progress = .sent ∧ f.number = v.loads))
    (hpage : v'.page.state = v.page.state ∧ v'.page.eventsSeen = v.page.eventsSeen ∧ v'.page.events = v.page.events) :
    Sound nvs ring boot₀ boot secs v' := by
  obtain ⟨hstate, hseen, hevents⟩ := hpage
  have hcovers (c : Control) (hc : v.Covers c) : v'.Covers c :=
    covers_fewer hc hloads hshown fun f hf => (hflights f hf).imp_right And.left
  refine sound_kept h hmachine hloads hflights hseen hcovers ?_ ?_
  · rw [htaken, hstate]
    exact fun c hc => (h.taken c hc).imp_right fun ⟨hst, hall⟩ => ⟨hst, hcovers c hall⟩
  · rw [hshown, hevents]
    exact h.shown

theorem sound_asks {p : App.Page} (granted : Bool)
    (hpage : p.state = v.page.state ∧ p.eventsSeen = v.page.eventsSeen ∧ p.events = v.page.events) {call : App.Call}
    (hcall : call ≠ .loadEvents) :
    Sound nvs ring boot₀ boot secs (({ v with page := p, granted := granted } : Visit).send (some call)) := by
  rw [send_other _ hcall]
  refine sound_page h rfl rfl rfl rfl (fun f hf => ?_) hpage
  rcases List.mem_append.mp hf with hf | hf
  · exact Or.inl hf
  · rw [List.mem_singleton] at hf
    subst hf
    exact Or.inr ⟨rfl, rfl⟩

theorem sound_begins {r : App.Page × Option App.Call} (hr : Begins v.page r) (granted : Bool) :
    Sound nvs ring boot₀ boot secs (({ v with page := r.1, granted := granted } : Visit).send r.2) := by
  rcases hr with rfl | ⟨body, rfl⟩
  · exact sound_page h rfl rfl rfl rfl (fun f hf => Or.inl hf) ⟨rfl, rfl, rfl⟩
  · exact sound_asks (p := { v.page with busy := true }) h granted ⟨rfl, rfl, rfl⟩ (by simp)

theorem split_log : v.machine.log ++ v.machine.pending = v.machine.task.control.published := by
  obtain ⟨l, hl⟩ := h.machine
  obtain ⟨turns, hr⟩ := refines_run nvs ring boot₀ l
  rw [hl]
  exact hr.log

theorem sound_machine {a : Move} (ha : a.isReboot = false) :
    ∃ more, Sound nvs ring boot₀ boot (secs ++ more) { v with machine := v.machine.step a } := by
  have hm := step_moved v.machine a
  obtain ⟨more, hmore⟩ := moved_sections hm ha
  have hlog := moved_log hm ha (split_log h)
  have htold (c : Control) (hc : Told boot secs v.machine.log c) :
      Told boot (secs ++ more) (v.machine.step a).log c := ⟨atTime_later hc.1 more, hc.2.trans hlog⟩
  refine ⟨more, ?_⟩
  constructor
  · obtain ⟨l, hl⟩ := h.machine
    refine ⟨l ++ [a], ?_⟩
    dsimp only
    rw [hl, machineAfter_snoc]
  · dsimp only
    rw [hmore, h.now]
    exact (run_append ..).symm
  · exact h.numbers
  · exact fun f hf => flight_later htold (h.flights f hf)
  · exact h.seen.imp_right fun ⟨c, st, hc, hmarker, hall⟩ => ⟨c, st, htold c hc, hmarker, hall.shown, hall.flights⟩
  · exact fun c hc => (h.taken c hc).imp (htold c) fun ⟨hst, hall⟩ => ⟨hst, hall.shown, hall.flights⟩
  · exact h.shown

/-- A call goes on, and an answer has what is in the ring now. -/
theorem sound_set {i : Nat} {f : Flight} (hf : v.flights[i]? = some f) {progress : Progress}
    (hnow : ∀ a, progress = .answered a → a.log = v.machine.log)
    (hflight : FlightSays (Told boot secs v.machine.log) ⟨f.call, f.number, progress⟩) :
    Sound nvs ring boot₀ boot secs { v with flights := v.flights.set i ⟨f.call, f.number, progress⟩ } := by
  have hmem : f ∈ v.flights := List.mem_of_getElem? hf
  have hcovers {c : Control} (hc : Told boot secs v.machine.log c) (hall : v.Covers c) :
      ({ v with flights := v.flights.set i ⟨f.call, f.number, progress⟩ } : Visit).Covers c := by
    refine ⟨hall.shown, fun g hg hload hlast a hga => ?_⟩
    rcases List.mem_or_eq_of_mem_set hg with hg | rfl
    · exact hall.flights g hg hload hlast a hga
    · rw [hnow a hga]
      exact hc.2.filter _
  constructor
  · exact h.machine
  · exact h.now
  · intro g hg
    rcases List.mem_or_eq_of_mem_set hg with hg | rfl
    · exact h.numbers g hg
    · exact h.numbers f hmem
  · intro g hg
    rcases List.mem_or_eq_of_mem_set hg with hg | rfl
    · exact h.flights g hg
    · exact hflight
  · exact h.seen.imp_right fun ⟨c, st, hc, hmarker, hall⟩ => ⟨c, st, hc, hmarker, hcovers hc hall⟩
  · exact fun c hc => (h.taken c hc).imp_right fun ⟨hst, hall⟩ => ⟨hst, hcovers (h.taken c hc).1 hall⟩
  · exact h.shown

theorem sound_fails (i : Nat) (f : Flight) : Sound nvs ring boot₀ boot secs (v.ends i f none) := by
  have hreply : ∃ busy, v.page.reply f.call none = ({ v.page with busy := busy }, none) := by
    unfold App.Page.reply
    cases f.call with
    | refresh | saveSettings _ | loadEvents => exact ⟨v.page.busy, rfl⟩
    | command body => exact ⟨false, rfl⟩
  obtain ⟨busy, hreply⟩ := hreply
  unfold Visit.ends
  rw [hreply]
  exact sound_page h rfl rfl rfl rfl (fun g hg => Or.inl (List.mem_of_mem_eraseIdx hg)) ⟨rfl, rfl, rfl⟩

/-! ### A document has come, or a list is asked for -/

section Document

variable {f : Flight} {c : Control} {p : App.Page} (i : Nat)

theorem sound_listed (hf : f ∈ v.flights) {a : Answer} (ha : f.progress = .answered a)
    (hcall : f.call = .loadEvents) (hpage : p.state = v.page.state ∧ p.eventsSeen = v.page.eventsSeen)
    (hlist : ListOf a.log p.events) :
    Sound nvs ring boot₀ boot secs
      { v with page := p, flights := v.flights.eraseIdx i, shown := some (f.number, a.log) } := by
  have hcovers (c' : Control) (hall : v.Covers c') :
      ({ v with page := p, flights := v.flights.eraseIdx i, shown := some (f.number, a.log) } : Visit).Covers c' := by
    refine ⟨fun log hlog => ?_, fun g hg => hall.flights g (List.mem_of_mem_eraseIdx hg)⟩
    obtain ⟨hlast, rfl⟩ := Prod.mk.inj (Option.some.inj hlog)
    exact hall.flights f hf hcall hlast _ ha
  refine sound_kept h rfl rfl (fun g hg => Or.inl (List.mem_of_mem_eraseIdx hg)) hpage.2 hcovers ?_ ?_
  · dsimp only
    rw [hpage.1]
    exact fun c' hc' => (h.taken c' hc').imp_right fun ⟨hst, hall⟩ => ⟨hst, hcovers c' hall⟩
  · intro n log hlog
    obtain ⟨rfl, rfl⟩ := Prod.mk.inj (Option.some.inj hlog)
    exact ⟨h.numbers f hf, hlist⟩

/-- New thresholds are saved: the state is newer, the list is not. -/
theorem sound_saved (hpage : p.eventsSeen = v.page.eventsSeen ∧ p.events = v.page.events) :
    Sound nvs ring boot₀ boot secs { v with page := p, flights := v.flights.eraseIdx i, taken := none } := by
  refine sound_kept h rfl rfl (fun g hg => Or.inl (List.mem_of_mem_eraseIdx hg)) hpage.1
    (fun _ hall => covers_fewer hall rfl rfl fun g hg => Or.inl (List.mem_of_mem_eraseIdx hg)) ?_ ?_
  · exact fun c' hc' => nomatch hc'
  · dsimp only
    rw [hpage.2]
    exact h.shown

/-- The list is loaded again, with the status of before or with a new one. -/
theorem sound_reloads {flights : List Flight} (hflights : ∀ g ∈ flights, g ∈ v.flights) {taken : Option Control}
    (htaken : ∀ c, taken = some c → Told boot secs v.machine.log c ∧ ∃ st, p.state = some (AppPage.statusOf c st))
    (hseen : p.eventsSeen = v.page.eventsSeen ∨
      ∃ c st, Told boot secs v.machine.log c ∧ p.eventsSeen = App.marker (AppPage.statusOf c st))
    (hevents : p.events = v.page.events) :
    Sound nvs ring boot₀ boot secs
      (({ v with page := p, flights := flights, taken := taken } : Visit).send (some .loadEvents)) := by
  have hnumbers : ∀ g ∈ flights, g.number ≤ v.loads := fun g hg => h.numbers g (hflights g hg)
  have hcovers (c' : Control) := covers_load (v := { v with page := p, flights := flights, taken := taken }) hnumbers
    (fun n log hlog => (h.shown n log hlog).1) c'
  constructor
  · exact h.machine
  · exact h.now
  · intro g hg
    rcases List.mem_append.mp hg with hg | hg
    · exact (hnumbers g hg).trans (Nat.le_succ _)
    · rw [List.mem_singleton] at hg
      subst hg
      exact le_refl _
  · intro g hg
    rcases List.mem_append.mp hg with hg | hg
    · exact h.flights g (hflights g hg)
    · rw [List.mem_singleton] at hg
      subst hg
      trivial
  · rcases hseen with hseen | ⟨c, st, hc, hseen⟩
    · refine h.seen.imp (fun hfirst => hseen.trans hfirst) ?_
      rintro ⟨c', st', hc', hmarker, -⟩
      exact ⟨c', st', hc', hseen.trans hmarker, hcovers c'⟩
    · exact Or.inr ⟨c, st, hc, hseen, hcovers c⟩
  · intro c' hc'
    obtain ⟨hold, hst⟩ := htaken c' hc'
    exact ⟨hold, hst, hcovers c'⟩
  · intro n log hlog
    obtain ⟨hle, hlist⟩ := h.shown n log hlog
    refine ⟨hle.trans (Nat.le_succ _), ?_⟩
    change ListOf _ p.events
    rw [hevents]
    exact hlist

theorem sound_arrives (hc : Told boot secs v.machine.log c) {st : Settings}
    (hpage : p.state = some (AppPage.statusOf c st) ∧ p.events = v.page.events)
    (hseen : p.eventsSeen = v.page.eventsSeen ∨ p.eventsSeen = App.marker (AppPage.statusOf c st)) :
    Sound nvs ring boot₀ boot secs
      (({ v with page := p, flights := v.flights.eraseIdx i, taken := some c } : Visit).send (some .loadEvents)) := by
  refine sound_reloads h (fun g hg => List.mem_of_mem_eraseIdx hg) (fun c' hc' => ?_)
    (hseen.imp_right fun hmarker => ⟨c, st, hc, hmarker⟩) hpage.2
  obtain rfl := Option.some.inj hc'
  exact ⟨hc, st, hpage.1⟩

theorem sound_quiet (hc : Told boot secs v.machine.log c) (hfew : startsIn (controlAfter boot secs).published < 2 ^ 32)
    {st : Settings}
    (hpage : p.state = some (AppPage.statusOf c st) ∧ p.eventsSeen = v.page.eventsSeen ∧ p.events = v.page.events)
    (hsame : App.marker (AppPage.statusOf c st) = v.page.eventsSeen) :
    Sound nvs ring boot₀ boot secs { v with page := p, flights := v.flights.eraseIdx i, taken := some c } := by
  have hcovers (c' : Control) (hall : v.Covers c') :
      ({ v with page := p, flights := v.flights.eraseIdx i, taken := some c } : Visit).Covers c' :=
    covers_fewer hall rfl rfl fun g hg => Or.inl (List.mem_of_mem_eraseIdx hg)
  obtain ⟨hstate, hseen, hevents⟩ := hpage
  refine sound_kept h rfl rfl (fun g hg => Or.inl (List.mem_of_mem_eraseIdx hg)) hseen hcovers ?_ ?_
  · intro c' hc'
    obtain rfl := Option.some.inj hc'
    -- The marker seen last is not the empty one of the opening page.
    obtain hfirst | ⟨e, st', he, hmarker, hall⟩ := h.seen
    · exact absurd (hsame.trans hfirst) (marker_ne _)
    · refine ⟨hc, ⟨st, hstate⟩, covers_same (hcovers e hall) ?_⟩
      exact atTime_marker hc.1 he.1 hfew (hsame.trans hmarker)
  · dsimp only
    rw [hevents]
    exact h.shown

end Document

theorem sound_replies {i : Nat} {f : Flight} {a : Answer} {doc : Json} (hf : v.flights[i]? = some f)
    (ha : f.progress = .answered a) (hdoc : a.doc = some doc)
    (hfew : startsIn (controlAfter boot secs).published < 2 ^ 32) :
    Sound nvs ring boot₀ boot secs ((v.takes f a).ends i f (some doc)) := by
  have hmem : f ∈ v.flights := List.mem_of_getElem? hf
  have hflight := h.flights f hmem
  unfold FlightSays at hflight
  rw [ha] at hflight
  have hflight := hflight doc hdoc
  unfold AnswerSays at hflight
  unfold Visit.ends Visit.takes App.Page.reply
  cases hcall : f.call with
  | refresh =>
    rw [hcall] at hflight
    obtain ⟨hc, st, hread⟩ := hflight
    simp only [Option.bind_some, hread, App.Page.refresh]
    split
    · exact sound_arrives h i hc ⟨rfl, rfl⟩ (Or.inr rfl)
    · rename_i hsame
      exact sound_quiet h i hc hfew ⟨rfl, rfl, rfl⟩ (not_not.mp hsame)
  | command body =>
    rw [hcall] at hflight
    obtain ⟨hc, st, hread⟩ := hflight
    simp only [Option.bind_some, hread, App.Page.command]
    exact sound_arrives h i hc ⟨(rfl : _ = some (AppPage.statusOf a.control st)), rfl⟩ (Or.inl rfl)
  | saveSettings patch =>
    rw [hcall] at hflight
    obtain ⟨-, st, hread⟩ := hflight
    simp only [Option.bind_some, hread, App.Page.saveSettings]
    exact sound_saved h i ⟨rfl, rfl⟩
  | loadEvents =>
    rw [hcall] at hflight
    obtain ⟨events, hread, hlist⟩ := hflight
    simp only [Option.bind_some, hread, App.Page.loadEvents]
    exact sound_listed h i hmem ha hcall ⟨rfl, rfl⟩ hlist

theorem sound_answers {hi_api : Response → Option Json} (hapi : HiApi hi_api) {i : Nat} {f : Flight} {env : HttpEnv}
    {client_ip : String} (hf : v.flights[i]? = some f) (hfree : v.machine.blocks f.call.uri = false) {m : Machine}
    (hm : m = { v.machine with toFirmware := (served v.machine f env client_ip).1 }) :
    ∃ more, Sound nvs ring boot₀ boot (secs ++ more) { v with
      machine := m
      flights := v.flights.set i ⟨f.call, f.number, Visit.handled hi_api m (served v.machine f env client_ip).2⟩ } := by
  obtain ⟨l, hl⟩ := h.machine
  obtain ⟨turns, hr⟩ := refines_run nvs ring boot₀ l
  obtain ⟨r, hring⟩ := hr.ring
  rw [← hl] at hring
  obtain ⟨more, hmoved⟩ := sound_machine h
    (a := .request f.call.method f.call.uri env (f.call.request client_ip)) rfl
  rw [← served_step hfree, ← hm] at hmoved
  refine ⟨more, sound_set hmoved hf (fun a ha => ?_) (handled_flight hapi hring f env client_ip hm _)⟩
  unfold Visit.handled at ha
  split at ha
  · cases ha
  · cases ha
    rfl

theorem sound_builds {hi_api : Response → Option Json} (hapi : HiApi hi_api) {i : Nat} {f : Flight} (env : StatusEnv)
    (hf : v.flights[i]? = some f) (hhandled : f.progress = .handled) (hfree : v.machine.s_lock = false) {r : Reply}
    (hr : r = Reply.status.sent v.machine.task.control (settings_get v.machine.store) env) :
    Sound nvs ring boot₀ boot secs { v with
      flights := v.flights.set i
        ⟨f.call, f.number, .answered ⟨hi_api (.reply r), v.machine.task.control, v.machine.log⟩⟩ } := by
  have hcall := h.flights f (List.mem_of_getElem? hf)
  unfold FlightSays at hcall
  rw [hhandled] at hcall
  have hlog : v.machine.task.control.published <+: v.machine.log := by
    rw [log_idle (pending_free hfree)]
  rw [hr]
  refine sound_set h hf (fun a ha => ?_) (built_flight hapi hcall ⟨⟨secs, List.prefix_refl _, h.now⟩, hlog⟩ _ env _)
  cases ha
  rfl

theorem sound_step {hi_api : Response → Option Json} (hapi : HiApi hi_api) {a : VisitMove} (hup : a.isReboot = false)
    {v' : Visit} (hs : Stepped hi_api v a v') (hfew : startsIn v'.machine.task.control.published < 2 ^ 32) :
    ∃ more, Sound nvs ring boot₀ boot (secs ++ more) v' := by
  have hquiet (hv : Sound nvs ring boot₀ boot secs v') : ∃ more, Sound nvs ring boot₀ boot (secs ++ more) v' :=
    ⟨[], by rwa [List.append_nil]⟩
  cases hs with
  | still _ ha => exact hquiet h
  | machine b => exact sound_machine h hup
  | asks _ ha call hcall => exact hquiet (sound_asks h v.granted ⟨rfl, rfl, rfl⟩ hcall.2)
  | loads name =>
    have hload : Sound nvs ring boot₀ boot secs (v.send (some .loadEvents)) :=
      sound_reloads h (fun g hg => hg) (fun c hc => (h.taken c hc).imp_right And.left) (Or.inl rfl) rfl
    exact hquiet (sound_asks hload _ ⟨rfl, rfl, rfl⟩ (by simp))
  | grants | letsGo => exact hquiet (sound_page h rfl rfl rfl rfl (fun f hf => Or.inl hf) ⟨rfl, rfl, rfl⟩)
  | fires => exact hquiet (sound_begins h (onFire_begins v.page) false)
  | autos => exact hquiet (sound_begins h (auto_begins v.page) v.granted)
  | chooses minutes =>
    exact hquiet (sound_page h rfl rfl rfl rfl (fun f hf => Or.inl hf) (choose_same v.page minutes).2)
  | answers i f env client_ip hf hfree m hm => exact sound_answers h hapi hf hfree hm
  | builds i f env hf hhandled hfree r hr => exact hquiet (sound_builds h hapi env hf hhandled hfree hr)
  | replies i f a doc hf ha hdoc =>
    refine hquiet (sound_replies h hf ha hdoc ?_)
    rw [← h.now]
    rwa [ends_machine, takes_machine] at hfew
  | fails _ hb i f hf => exact hquiet (sound_fails h i f)

end Sound

theorem stepped_sections {hi_api : Response → Option Json} {v v' : Visit} {a : VisitMove} (hs : Stepped hi_api v a v')
    (hup : a.isReboot = false) : ∃ secs, v'.machine.task.control = run Section.exec v.machine.task.control secs := by
  cases hs with
  | machine b => exact moved_sections (step_moved v.machine b) hup
  | asks _ ha call hcall => exact ⟨[], by rw [send_machine]; rfl⟩
  | loads name => exact ⟨[], by rw [send_machine, send_machine]; rfl⟩
  | fires | autos => exact ⟨[], by rw [send_machine]; rfl⟩
  | answers i f env client_ip hf hfree m hm =>
    obtain ⟨secs, hsecs⟩ := moved_sections
      (step_moved v.machine (.request f.call.method f.call.uri env (f.call.request client_ip))) rfl
    rw [← served_step hfree, ← hm] at hsecs
    exact ⟨secs, hsecs⟩
  | replies i f a doc hf ha hdoc => exact ⟨[], by rw [ends_machine, takes_machine]; rfl⟩
  | fails _ hb i f hf => exact ⟨[], by rw [ends_machine]; rfl⟩
  | _ => exact ⟨[], rfl⟩

theorem sound_run {hi_api : Response → Option Json} (hapi : HiApi hi_api) (nvs : Nvs) (ring : EventRing) (boot : Int)
    (h : List Move) {l : List VisitMove} (hup : ∀ a ∈ l, a.isReboot = false)
    (hfew : startsIn (visitAfter hi_api (machineAfter nvs ring boot h) l).machine.task.control.published < 2 ^ 32) :
    ∃ boot' secs, Sound nvs ring boot boot' secs (visitAfter hi_api (machineAfter nvs ring boot h) l) := by
  induction l using List.reverseRecOn with
  | nil =>
    obtain ⟨boot', secs, -, hc⟩ := reached_run nvs ring boot h
    refine ⟨boot', secs, ⟨h, rfl⟩, hc, ?_, ?_, Or.inl rfl, ?_, ?_⟩ <;> simp [visitAfter, run, Visit.opened]
  | append_singleton l a ih =>
    rw [visitAfter_snoc] at hfew ⊢
    generalize visitAfter hi_api (machineAfter nvs ring boot h) l = v at *
    have hs := step_cases hi_api v a
    obtain ⟨secs, hsecs⟩ := stepped_sections hs (hup a (by simp))
    have hbefore : startsIn v.machine.task.control.published < 2 ^ 32 := by
      unfold startsIn at hfew ⊢
      rw [hsecs, published_run, logOf_append, List.count_append] at hfew
      omega
    obtain ⟨boot', secs', hv⟩ := ih (fun b hb => hup b (by simp [hb])) hbefore
    obtain ⟨more, hmore⟩ := sound_step hv hapi (hup a (by simp)) hs hfew
    exact ⟨boot', secs' ++ more, hmore⟩

/-- Whatever has come, has failed or is on its way: if the list on the page is of the last load that was asked
for, then no switch of the pump before the status on the page is missing from its log. -/
theorem list_is_never_behind {hi_api : Response → Option Json} (hapi : HiApi hi_api) (nvs : Nvs) (ring : EventRing)
    (boot : Int) (h : List Move) {l : List VisitMove} (hup : ∀ a ∈ l, a.isReboot = false)
    (hfew : startsIn (visitAfter hi_api (machineAfter nvs ring boot h) l).machine.task.control.published < 2 ^ 32) :
    let v := visitAfter hi_api (machineAfter nvs ring boot h) l
    (∀ n log, v.shown = some (n, log) → ListOf log v.page.events) ∧
      ∀ c log, v.taken = some c → v.shown = some (v.loads, log) →
        (∃ s st, v.page.state = some s ∧ Describes s c st) ∧ pumpLog c.published <+: pumpLog log := by
  obtain ⟨boot', secs, hv⟩ := sound_run hapi nvs ring boot h hup hfew
  refine ⟨fun n log hlog => (hv.shown n log hlog).2, fun c log hc hlog => ?_⟩
  obtain ⟨-, ⟨st, hstate⟩, hcovers⟩ := hv.taken c hc
  exact ⟨⟨_, st, hstate, 0, fun t => t, [], status_read c st 0 (fun t => t) []⟩, hcovers.shown log hlog⟩

theorem jsonOf_api : HiApi jsonOf := by
  intro r doc
  unfold jsonOf
  split
  · rename_i doc'
    simp
  · rename_i hother
    simp only [reduceCtorEq, false_iff]
    rintro rfl
    exact hother doc rfl

/-- A pass at 46 degrees, before the swipe's status is built. -/
def hotPass : List VisitMove :=
  [.tick 60, .sample, .sensor ⟨⟨.ESP_OK, some 7, 1⟩, fun _ => ⟨.ESP_OK, 460⟩⟩, .lock, .decision ⟨false, 0⟩, .publish,
    .unlock, .history].map .machine

/-- The list of the first poll, a swipe, its list, and a look at the history. -/
def swiped : List VisitMove :=
  beforeFire ++ [.answer 0 phoneEnv "192.168.11.20", .reply 0, .onFire, .answer 0 phoneEnv "192.168.11.20"] ++
    hotPass ++ [.status 0 phoneEnv.status, .reply 0] ++ comesBack 0 ++ .tab "history" :: comesBack 0

theorem swipe_in_the_list :
    let v := visitAfter jsonOf (machineAfter .missing zeroedRing 0 []) swiped
    v.page.events.map (·.what) = ["Overheat", "Started by hand"] ∧ v.page.state.map (·.reason) = some "overheat" ∧
      ∃ c log, v.taken = some c ∧ v.shown = some (v.loads, log) ∧ pumpLog c.published <+: pumpLog log := by
  have hup : ∀ a ∈ swiped, a.isReboot = false := by
    simp [swiped, hotPass, beforeFire, comesBack, VisitMove.isReboot, Move.isReboot]
  obtain ⟨-, hlist⟩ := list_is_never_behind jsonOf_api .missing zeroedRing 0 [] hup (by decide +kernel)
  have htaken : (visitAfter jsonOf (machineAfter .missing zeroedRing 0 []) swiped).taken.isSome = true := by
    decide +kernel
  have hshown : (visitAfter jsonOf (machineAfter .missing zeroedRing 0 []) swiped).shown.map Prod.fst =
      some (visitAfter jsonOf (machineAfter .missing zeroedRing 0 []) swiped).loads := by decide +kernel
  obtain ⟨c, hc⟩ := Option.isSome_iff_exists.mp htaken
  obtain ⟨⟨n, log⟩, hlog, hn⟩ := Option.map_eq_some_iff.mp hshown
  obtain rfl : n = _ := hn
  exact ⟨by decide +kernel, by decide +kernel, c, log, hc, hlog, (hlist c log hc hlog).2⟩

end FloorHeating.Reload
