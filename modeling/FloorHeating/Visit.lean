import FloorHeating.App
import FloorHeating.Spec.Visit

/-!
# What a swipe says and does

What the script keeps by itself, whatever the firmware answers and when, and
what a firmware does with the command of a swipe.
-/

open FloorHeating.Lib FloorHeating.Account FloorHeating.MachineRun FloorHeating.Documents FloorHeating.AppPage
  FloorHeating.Http

namespace FloorHeating.PageVisit

/-! ## What a move can do -/

def Begins (p : App.Page) (r : App.Page × Option App.Call) : Prop :=
  r = (p, none) ∨ ∃ body, r = ({ p with busy := true }, some (.command body))

theorem onFire_begins (p : App.Page) : Begins p p.onFire := by
  unfold App.Page.onFire
  split
  · exact Or.inr ⟨_, rfl⟩
  · exact Or.inl rfl

theorem auto_begins (p : App.Page) : Begins p p.auto := by
  unfold App.Page.auto
  split
  · exact Or.inr ⟨_, rfl⟩
  · exact Or.inl rfl

theorem auto_busy {p : App.Page} (hbusy : p.busy = true) : p.auto = (p, none) := if_neg (by simp [hbusy])

def served (m : Machine) (f : Flight) (env : HttpEnv) (client_ip : String) : Firmware × Response :=
  serve f.call.method f.call.uri { env with now_s := m.clock } m.toFirmware (f.call.request client_ip)

inductive Stepped (hi_api : Response → Option Json) (v : Visit) : VisitMove → Visit → Prop where
  | still (a : VisitMove) (ha : a.isReboot = false) : Stepped hi_api v a v
  | machine (b : Move) : Stepped hi_api v (.machine b) { v with machine := v.machine.step b }
  | asks (a : VisitMove) (ha : a.isReboot = false) (call : App.Call)
      (hcall : call.isCommand = false ∧ call ≠ .loadEvents) : Stepped hi_api v a (v.send (some call))
  | loads (name : String) : Stepped hi_api v (.tab name) ((v.send (some .loadEvents)).send (some .refresh))
  | grants : Stepped hi_api v .canStart { v with granted := App.canStart v.page.busy v.page.state }
  | letsGo : Stepped hi_api v .letGo { v with granted := false }
  | fires : Stepped hi_api v .onFire ({ v with page := v.page.onFire.1, granted := false }.send v.page.onFire.2)
  | autos : Stepped hi_api v .auto ({ v with page := v.page.auto.1 }.send v.page.auto.2)
  | chooses (minutes : Rat) : Stepped hi_api v (.choose minutes) { v with page := v.page.choose minutes }
  | answers (i : Nat) (f : Flight) (env : HttpEnv) (client_ip : String) (hf : v.flights[i]? = some f)
      (hfree : v.machine.blocks f.call.uri = false) (m : Machine)
      (hm : m = { v.machine with toFirmware := (served v.machine f env client_ip).1 }) :
      Stepped hi_api v (.answer i env client_ip) { v with
        machine := m
        flights := v.flights.set i
          ⟨f.call, f.number, Visit.handled hi_api m (served v.machine f env client_ip).2⟩ }
  | builds (i : Nat) (f : Flight) (env : StatusEnv) (hf : v.flights[i]? = some f) (hhandled : f.progress = .handled)
      (hfree : v.machine.s_lock = false) (r : Reply)
      (hr : r = Reply.status.sent v.machine.task.control (settings_get v.machine.store) env) :
      Stepped hi_api v (.status i env) { v with
        flights := v.flights.set i
          ⟨f.call, f.number, .answered ⟨hi_api (.reply r), v.machine.task.control, v.machine.log⟩⟩ }
  | replies (i : Nat) (f : Flight) (a : Answer) (doc : Json) (hf : v.flights[i]? = some f)
      (ha : f.progress = .answered a) (hdoc : a.doc = some doc) :
      Stepped hi_api v (.reply i) ((v.takes f a).ends i f (some doc))
  | fails (b : VisitMove) (hb : b.isReboot = false) (i : Nat) (f : Flight) (hf : v.flights[i]? = some f) :
      Stepped hi_api v b (v.ends i f none)

theorem step_cases (hi_api : Response → Option Json) (v : Visit) (a : VisitMove) :
    Stepped hi_api v a (v.step hi_api a) := by
  cases a with
  | machine b => exact .machine b
  | poll => exact .asks _ rfl .refresh ⟨rfl, by simp⟩
  | tab name =>
    change Stepped hi_api v _ ((App.tabs name).foldl (fun v call => v.send (some call)) v)
    unfold App.tabs
    split
    · exact .loads name
    · exact .asks _ rfl .refresh ⟨rfl, by simp⟩
  | canStart => exact .grants
  | letGo => exact .letsGo
  | onFire => exact .fires
  | auto => exact .autos
  | choose minutes => exact .chooses minutes
  | press b =>
    change Stepped hi_api v _ (v.send (v.page.state.map _))
    cases v.page.state with
    | none => exact .still _ rfl
    | some s => exact .asks _ rfl _ ⟨rfl, by simp⟩
  | answer i env client_ip =>
    unfold Visit.step
    dsimp only
    split
    · rename_i call number hf
      split
      · exact .still _ rfl
      · rename_i hfree
        exact .answers i ⟨call, number, .sent⟩ env client_ip hf (Bool.not_eq_true _ ▸ hfree) _ rfl
    · exact .still _ rfl
  | status i env =>
    unfold Visit.step
    dsimp only
    split
    · rename_i call number hf
      split
      · exact .still _ rfl
      · rename_i hfree
        exact .builds i ⟨call, number, .handled⟩ env hf rfl (Bool.not_eq_true _ ▸ hfree) _ rfl
    · exact .still _ rfl
  | reply i =>
    unfold Visit.step
    dsimp only
    split
    · rename_i f hf
      split
      · rename_i a ha
        split
        · rename_i hcame
          obtain ⟨doc, hdoc⟩ := Option.isSome_iff_exists.mp hcame
          rw [hdoc]
          exact .replies i f a doc hf ha hdoc
        · exact .fails _ rfl i f hf
      · exact .still _ rfl
    · exact .still _ rfl
  | fail i =>
    unfold Visit.step
    dsimp only
    split
    · rename_i f hf
      exact .fails _ rfl i f hf
    · exact .still _ rfl

theorem send_page (v : Visit) (call : Option App.Call) :
    (v.send call).page = v.page ∧ (v.send call).granted = v.granted := by
  unfold Visit.send
  split <;> exact ⟨rfl, rfl⟩

theorem takes_page (v : Visit) (f : Flight) (a : Answer) :
    (v.takes f a).page = v.page ∧ (v.takes f a).flights = v.flights ∧ (v.takes f a).granted = v.granted := by
  unfold Visit.takes
  split <;> exact ⟨rfl, rfl, rfl⟩

theorem choose_same (p : App.Page) (minutes : Rat) : (p.choose minutes).busy = p.busy ∧
    (p.choose minutes).state = p.state ∧ (p.choose minutes).eventsSeen = p.eventsSeen ∧
    (p.choose minutes).events = p.events := by
  unfold App.Page.choose
  split
  · dsimp only
    split <;> exact ⟨rfl, rfl, rfl, rfl⟩
  · exact ⟨rfl, rfl, rfl, rfl⟩

theorem visitAfter_snoc (hi_api : Response → Option Json) (m : Machine) (l : List VisitMove) (a : VisitMove) :
    visitAfter hi_api m (l ++ [a]) = (visitAfter hi_api m l).step hi_api a := run_snoc ..

variable (hi_api : Response → Option Json)

/-! ## What the swipe says -/

/-- The text is of the state and the minutes that a swipe would take. -/
structure Rendered (p : App.Page) : Prop where
  minutes : p.minutes ∈ App.MINUTES
  first : p.state = none → p.swipe.1 = "Slide to start pump"
  swipe : ∀ s, p.state = some s → p.swipe = App.swipeText s p.minutes

theorem rendered_init : Rendered .init where
  minutes := by simp [App.Page.init, App.MINUTES]
  first _ := rfl
  swipe := by simp [App.Page.init]

section Page

variable {p : App.Page} (h : Rendered p)

include h

theorem rendered_state (s : App.Status) : Rendered ({ p with state := some s }.render s) where
  minutes := h.minutes
  first hnone := nomatch hnone
  swipe s' hs' := by
    obtain rfl := Option.some.inj hs'
    rfl

theorem rendered_reply (call : App.Call) (doc : Option Json) : Rendered (p.reply call doc).1 := by
  unfold App.Page.reply
  cases call with
  | refresh =>
    unfold App.Page.refresh
    dsimp only
    split
    · rename_i s _
      have hs := rendered_state h s
      split <;> exact ⟨hs.minutes, hs.first, hs.swipe⟩
    · exact h
  | command body =>
    unfold App.Page.command
    dsimp only
    split
    · rename_i s _
      have hs := rendered_state h s
      exact ⟨hs.minutes, hs.first, hs.swipe⟩
    · exact ⟨h.minutes, h.first, h.swipe⟩
  | saveSettings patch =>
    unfold App.Page.saveSettings
    dsimp only
    split
    · exact rendered_state h _
    · exact h
  | loadEvents =>
    unfold App.Page.loadEvents
    dsimp only
    split
    · exact ⟨h.minutes, h.first, h.swipe⟩
    · exact h

theorem rendered_choose (minutes : Rat) : Rendered (p.choose minutes) := by
  unfold App.Page.choose
  split
  · rename_i hknown
    dsimp only
    split
    · rename_i s hs
      refine ⟨hknown.1, fun hnone => ?_, fun s' hs' => ?_⟩
      · cases hs.symm.trans hnone
      · obtain rfl := Option.some.inj (hs.symm.trans hs')
        rfl
    · rename_i hnone
      refine ⟨hknown.1, h.first, fun s hs => ?_⟩
      rw [hnone] at hs
      cases hs
  · exact h

theorem rendered_begins {r : App.Page × Option App.Call} (hr : Begins p r) : Rendered r.1 := by
  rcases hr with rfl | ⟨body, rfl⟩
  · exact h
  · exact ⟨h.minutes, h.first, h.swipe⟩

end Page

theorem rendered_ends {v : Visit} (h : Rendered v.page) (i : Nat) (f : Flight) (doc : Option Json) :
    Rendered (v.ends i f doc).page := by
  unfold Visit.ends
  rw [(send_page _ _).1]
  exact rendered_reply h f.call doc

theorem rendered_step {v v' : Visit} {a : VisitMove} (h : Rendered v.page) (hs : Stepped hi_api v a v') :
    Rendered v'.page := by
  cases hs with
  | still _ ha | machine b | answers i f env client_ip hf hfree m hm | builds i f env hf hhandled hfree r hr | grants
  | letsGo => exact h
  | asks _ ha call hcall =>
    rw [(send_page _ _).1]
    exact h
  | loads name =>
    rw [(send_page _ _).1, (send_page _ _).1]
    exact h
  | fires =>
    rw [(send_page _ _).1]
    exact rendered_begins h (onFire_begins v.page)
  | autos =>
    rw [(send_page _ _).1]
    exact rendered_begins h (auto_begins v.page)
  | chooses minutes => exact rendered_choose h minutes
  | replies i f a doc hf ha hdoc =>
    refine rendered_ends ?_ i f (some doc)
    rw [(takes_page v f a).1]
    exact h
  | fails _ hb i f hf => exact rendered_ends h i f none

theorem rendered_run (m : Machine) (l : List VisitMove) : Rendered (visitAfter hi_api m l).page := by
  induction l using List.reverseRecOn with
  | nil => exact rendered_init
  | append_singleton l a ih =>
    rw [visitAfter_snoc]
    exact rendered_step hi_api ih (step_cases hi_api _ a)

/-! ## One command at a time -/

theorem send_underWay (v : Visit) (call : Option App.Call) :
    (v.send call).underWay = v.underWay + if call.any (·.isCommand) then 1 else 0 := by
  unfold Visit.send Visit.underWay
  split
  · simp [App.Call.isCommand]
  · rename_i call _
    dsimp only
    rw [List.countP_append, List.countP_singleton]
    rfl
  · rfl

theorem set_underWay {v : Visit} {i : Nat} {f : Flight} (hf : v.flights[i]? = some f) (progress : Progress) :
    ({ v with flights := v.flights.set i ⟨f.call, f.number, progress⟩ } : Visit).underWay = v.underWay := by
  obtain ⟨hi, hf⟩ := List.getElem?_eq_some_iff.mp hf
  have hmem : f.call.isCommand = true → 0 < v.flights.countP (·.call.isCommand) := fun hc =>
    List.countP_pos_iff.mpr ⟨f, hf ▸ List.getElem_mem hi, hc⟩
  unfold Visit.underWay
  dsimp only
  rw [List.countP_set hi, hf]
  split
  · rename_i hc
    exact Nat.sub_add_cancel (hmem hc)
  · rfl

/-- The end of a command lets the next one begin; no other end does, and none begins one. -/
theorem reply_busy (p : App.Page) (call : App.Call) (doc : Option Json) :
    (p.reply call doc).1.busy = (p.busy && !call.isCommand) ∧ (p.reply call doc).2.any (·.isCommand) = false ∧
      (p.state.isSome = true → (p.reply call doc).1.state.isSome = true) := by
  unfold App.Page.reply
  cases call with
  | refresh =>
    unfold App.Page.refresh
    dsimp only
    split
    · split <;> simp [App.Page.render, App.Call.isCommand]
    · simp [App.Call.isCommand]
  | command body =>
    unfold App.Page.command
    dsimp only
    split <;> simp [App.Page.render, App.Call.isCommand]
  | saveSettings patch =>
    unfold App.Page.saveSettings
    dsimp only
    split <;> simp [App.Page.render, App.Call.isCommand]
  | loadEvents =>
    unfold App.Page.loadEvents
    dsimp only
    split <;> simp [App.Call.isCommand]

structure Orderly (v : Visit) : Prop where
  underWay : v.underWay = if v.page.busy then 1 else 0
  granted : v.granted = true → v.page.busy = false ∧ v.page.state.isSome = true

section Orderly

variable {v : Visit} (h : Orderly v)

include h

theorem orderly_send {call : App.Call} (hcall : call.isCommand = false) : Orderly (v.send (some call)) := by
  obtain ⟨hpage, hgranted⟩ := send_page v (some call)
  constructor
  · rw [hpage, send_underWay, Option.any_some, hcall]
    exact h.underWay
  · rw [hpage, hgranted]
    exact h.granted

/-- A command begins on a free page, and ends the swipe. -/
theorem orderly_begins {r : App.Page × Option App.Call} (hr : Begins v.page r) (hfree : v.page.busy = false) :
    Orderly ({ v with page := r.1, granted := false }.send r.2) := by
  obtain ⟨hpage, hgranted⟩ := send_page { v with page := r.1, granted := false } r.2
  have hnone := h.underWay
  constructor
  · rw [hpage, send_underWay]
    change v.underWay + _ = _
    rw [hfree] at hnone
    rw [hnone]
    rcases hr with rfl | ⟨body, rfl⟩
    · simp [hfree]
    · simp [App.Call.isCommand]
  · rw [hgranted]
    simp

theorem orderly_ends {i : Nat} {f : Flight} (hf : v.flights[i]? = some f) (doc : Option Json) :
    Orderly (v.ends i f doc) := by
  obtain ⟨hi, hf⟩ := List.getElem?_eq_some_iff.mp hf
  have hcount := (List.getElem_cons_eraseIdx_perm hi).countP_eq (p := (·.call.isCommand))
  obtain ⟨hbusy, hquiet, hstate⟩ := reply_busy v.page f.call doc
  have hbefore := h.underWay
  obtain ⟨hpage, hgranted⟩ := send_page
    { v with page := (v.page.reply f.call doc).1, flights := v.flights.eraseIdx i } (v.page.reply f.call doc).2
  unfold Visit.ends
  dsimp only
  constructor
  · rw [hpage, send_underWay, hquiet]
    unfold Visit.underWay at hbefore ⊢
    dsimp only
    rw [hf, List.countP_cons, hbefore] at hcount
    rw [hbusy]
    cases hc : f.call.isCommand <;> cases hb : v.page.busy <;> simp [hc, hb] at hcount ⊢ <;> omega
  · rw [hpage, hgranted]
    intro hswiped
    obtain ⟨hfree, hknown⟩ := h.granted hswiped
    exact ⟨by rw [hbusy, hfree]; rfl, hstate hknown⟩

theorem orderly_step {v' : Visit} {a : VisitMove} (hs : Stepped hi_api v a v') (hfit : a.Fits v) : Orderly v' := by
  cases hs with
  | still _ ha | machine b => exact ⟨h.underWay, h.granted⟩
  | asks _ ha call hcall => exact orderly_send h hcall.1
  | loads name => exact orderly_send (orderly_send h rfl) rfl
  | grants =>
    refine ⟨h.underWay, fun hcan => ?_⟩
    change App.canStart v.page.busy v.page.state = true at hcan
    unfold App.canStart at hcan
    rw [Bool.and_eq_true, Bool.not_eq_true'] at hcan
    refine ⟨hcan.1, ?_⟩
    obtain ⟨s, hs, -⟩ := (Option.any_eq_true ..).mp hcan.2
    exact Option.isSome_iff_exists.mpr ⟨s, hs⟩
  | letsGo => exact ⟨h.underWay, by simp⟩
  | fires => exact orderly_begins h (onFire_begins v.page) (h.granted hfit).1
  | autos =>
    have hnone : v.granted = false := hfit
    cases hbusy : v.page.busy with
    | true =>
      rw [auto_busy hbusy]
      exact h
    | false =>
      have hbegun := orderly_begins h (auto_begins v.page) hbusy
      rwa [← hnone] at hbegun
  | chooses minutes =>
    obtain ⟨hbusy, hstate, -, -⟩ := choose_same v.page minutes
    constructor
    · dsimp only
      rw [hbusy]
      exact h.underWay
    · dsimp only
      rw [hbusy, hstate]
      exact h.granted
  | answers i f env client_ip hf hfree m hm | builds i f env hf hhandled hfree r hr =>
    exact ⟨(set_underWay hf _).trans h.underWay, h.granted⟩
  | replies i f a doc hf ha hdoc =>
    obtain ⟨hpage, hflights, hgranted⟩ := takes_page v f a
    refine orderly_ends ⟨?_, ?_⟩ (hflights ▸ hf) _
    · rw [hpage]
      unfold Visit.underWay
      rw [hflights]
      exact h.underWay
    · rw [hpage, hgranted]
      exact h.granted
  | fails _ hb i f hf => exact orderly_ends h hf none

end Orderly

theorem orderly_run (m : Machine) {l : List VisitMove} (hl : SwipesFit hi_api m l) : Orderly (visitAfter hi_api m l) :=
  run_invariant ⟨rfl, by simp [Visit.opened]⟩
    (fun pre a ih hfit => orderly_step hi_api ih (step_cases hi_api (visitAfter hi_api m pre) a) hfit) l hl

/-! ## What a swipe does -/

/-- A command from the page is carried out for its minutes by any firmware, or refused for an overheat. -/
theorem order_kept {word : String} {manual : CtlManual} (horder : Commands.Order word manual) {minutes : Rat}
    (hpos : 0 < double minutes) {env : HttpEnv}
    (hcast : ∀ x : Rat, 0 ≤ x → x ≤ 43200 → ((env.to_uint32 x).toNat : Int) = ⌊x⌋) (nvs : Nvs) (ring : EventRing)
    (boot : Int) (h : List Move) {f : Flight} (hf : f.call = .command (App.command word minutes)) (client_ip : String) :
    let m := machineAfter nvs ring boot h
    SwipeKept m.toFirmware m.clock (heldFor minutes) word (served m f env client_ip) := by
  obtain ⟨boot', secs, -, hc⟩ := reached_run nvs ring boot h
  generalize machineAfter nvs ring boot h = m at *
  have hasks : Asks (App.command word minutes) word ∧ Minutes (App.command word minutes) minutes := by
    rcases horder with ⟨rfl, -⟩ | ⟨rfl, -⟩ <;> exact ⟨rfl, rfl⟩
  have hset : manual ≠ .None := by
    rcases horder with ⟨-, rfl⟩ | ⟨-, rfl⟩ <;> decide
  have hname : manual_name manual = word := by
    rcases horder with ⟨rfl, rfl⟩ | ⟨rfl, rfl⟩ <;> rfl
  have hstart : decide (manual = .Start) = decide (word = "start") := by
    rcases horder with ⟨rfl, rfl⟩ | ⟨rfl, rfl⟩ <;> decide
  dsimp only
  unfold served
  rw [hf]
  change SwipeKept _ _ _ _ (serve .HTTP_POST "/api/pump" _ _ _)
  rw [serve_pump rfl rfl]
  dsimp only
  rw [Commands.pump_ordered env.to_uint32 _ _ env.date _ _ _ horder hasks.1 hasks.2 hpos]
  by_cases hrefused : manual = .Stop ∧ m.task.control.s_state.overheat = true
  · have hword : word = "stop" := by
      rw [← hname, hrefused.1]
      rfl
    rw [Commands.control_manual_refused hrefused]
    exact .refused hword hrefused.2 (Prod.ext (locked_same m.toFirmware) rfl)
  · have hholds : Holds (control_manual m.task.control (settings_get m.store) env.date m.clock manual
        (Commands.asked env.to_uint32 minutes) client_ip).1.s_state manual _ (decide (manual = .Start)) :=
      Commands.order_holds hset hrefused
    obtain ⟨hstate, hreply, hrelay⟩ := Commands.answer_ok boot' secs (settings_get m.store) env.date m.clock
      (Commands.asked env.to_uint32 minutes) client_ip (hc ▸ hrefused)
    rw [Commands.asked_held hcast hpos, hstart] at hholds
    rw [← hc] at hstate hreply hrelay
    rw [← hstate] at hholds
    exact .done (congrArg Response.reply hreply) (hrelay.trans hholds.pump) ⟨manual, hname, hholds⟩

theorem label_seconds {minutes : Rat} (hm : minutes ∈ App.MINUTES) :
    (App.fmtMin minutes, heldFor minutes) ∈ LABELS := by
  have hhalf : heldFor 30 = 1800 := (Commands.heldFor_whole (n := 30) (by decide) (by decide)).trans (by decide +kernel)
  have hone : heldFor 60 = 3600 := (Commands.heldFor_whole (n := 60) (by decide) (by decide)).trans (by decide +kernel)
  have hfour : heldFor 240 = 14400 :=
    (Commands.heldFor_whole (n := 240) (by decide) (by decide)).trans (by decide +kernel)
  simp only [App.MINUTES, List.mem_cons, List.not_mem_nil, or_false] at hm
  rcases hm with rfl | rfl | rfl
  · rw [hhalf]
    decide +kernel
  · rw [hone]
    decide +kernel
  · rw [hfour]
    decide +kernel

/-! ### The text and `canStart` -/

theorem offers_text (minutes : Rat) {s : App.Status} (hcool : ¬ (s.on && s.overheat) = true) :
    (App.swipeText s minutes).1 = s!"Slide to {App.fired s} for {App.fmtMin minutes}" := by
  unfold App.swipeText App.fired
  rw [if_neg hcool]
  cases s.on <;> rfl

theorem fired_word (s : App.Status) : App.fired s ∈ ["start", "stop"] := by
  unfold App.fired
  split <;> simp

theorem canStart_iff {p : App.Page} (h : Rendered p) :
    App.canStart p.busy p.state = true ↔ p.busy = false ∧ Offers p.swipe.1 := by
  unfold App.canStart
  rw [Bool.and_eq_true, Bool.not_eq_true']
  apply and_congr_right
  intro _
  cases hs : p.state with
  | none =>
    have hno : ¬ Offers "Slide to start pump" := by decide +kernel
    rw [h.first hs]
    exact iff_of_false (by simp) hno
  | some s =>
    rw [h.swipe s hs, Option.any_some, Bool.not_eq_true']
    by_cases hhot : (s.on && s.overheat) = true
    · have hno : ¬ Offers "Overheat: stop not allowed" := by decide +kernel
      have htext : (App.swipeText s p.minutes).1 = "Overheat: stop not allowed" := by
        unfold App.swipeText
        rw [if_pos hhot]
      rw [htext]
      exact iff_of_false (by simp [hhot]) hno
    · refine iff_of_true (Bool.not_eq_true _ ▸ hhot) ⟨App.fired s, fired_word s, _, label_seconds h.minutes, ?_⟩
      exact offers_text p.minutes hhot

/-- Whatever has come and gone, in whatever order: no second command begins before the first has ended, a swipe can
begin exactly if the page is free and its text offers something, and it does what its text says, for as long as it
says, at any firmware that it reaches. An overheat that comes up during the swipe is shown, and its stop is refused. -/
theorem swipe_does_what_it_says (m : Machine) {l : List VisitMove} (hl : SwipesFit hi_api m l) (nvs : Nvs)
    (ring : EventRing) (boot : Int) (h : List Move) (env : HttpEnv)
    (hcast : ∀ x : Rat, 0 ≤ x → x ≤ 43200 → ((env.to_uint32 x).toNat : Int) = ⌊x⌋) (client_ip : String) :
    let v := visitAfter hi_api m l
    let m' := machineAfter nvs ring boot h
    v.underWay = (if v.page.busy then 1 else 0) ∧
      (App.canStart v.page.busy v.page.state = true ↔ v.page.busy = false ∧ Offers v.page.swipe.1) ∧
      (v.granted = true → ∃ word label seconds, (label, seconds) ∈ LABELS ∧
        (v.page.swipe.1 = s!"Slide to {word} for {label}" ∨
          (word = "stop" ∧ v.page.swipe.1 = "Overheat: stop not allowed")) ∧
        ∃ f, (v.step hi_api .onFire).flights = v.flights ++ [f] ∧
          SwipeKept m'.toFirmware m'.clock seconds word (served m' f env client_ip)) := by
  have hrendered := rendered_run hi_api m l
  have horderly := orderly_run hi_api m hl
  generalize visitAfter hi_api m l = v at *
  refine ⟨horderly.underWay, canStart_iff hrendered, fun hgranted => ?_⟩
  obtain ⟨hfree, hknown⟩ := horderly.granted hgranted
  obtain ⟨s, hs⟩ := Option.isSome_iff_exists.mp hknown
  have hfire : v.page.onFire =
      ({ v.page with busy := true }, some (.command (App.command (App.fired s) v.page.minutes))) := by
    unfold App.Page.onFire
    simp only [hs]
  have horder : ∃ manual, Commands.Order (App.fired s) manual := by
    unfold App.fired
    cases s.on with
    | true => exact ⟨.Stop, Or.inr ⟨rfl, rfl⟩⟩
    | false => exact ⟨.Start, Or.inl ⟨rfl, rfl⟩⟩
  obtain ⟨manual, horder⟩ := horder
  refine ⟨App.fired s, _, _, label_seconds hrendered.minutes, ?_,
    ⟨.command (App.command (App.fired s) v.page.minutes), v.loads, .sent⟩, ?_, ?_⟩
  · rw [hrendered.swipe s hs]
    by_cases hhot : (s.on && s.overheat) = true
    · right
      have hon : s.on = true := (Bool.and_eq_true_iff.mp hhot).1
      unfold App.swipeText App.fired
      rw [if_pos hhot, if_pos hon]
      exact ⟨rfl, rfl⟩
    · exact Or.inl (offers_text v.page.minutes hhot)
  · change (({ v with page := v.page.onFire.1, granted := false } : Visit).send v.page.onFire.2).flights = _
    rw [hfire]
    rfl
  · exact order_kept horder (minutes_pos hrendered.minutes) hcast nvs ring boot h rfl client_ip

def jsonOf : Response → Option Json
  | .reply (.json "200 OK" doc) => some doc
  | _ => none

/-- The `i`th call, up to its reply. -/
def comesBack (i : Nat) : List VisitMove :=
  [.answer i phoneEnv "192.168.11.20", .status i phoneEnv.status, .reply i]

/-- A first poll, and a swipe for four hours. -/
def beforeFire : List VisitMove := .poll :: comesBack 0 ++ [.choose 240, .canStart]

/-- The reply has come, and the finger is on the swipe again. -/
def afterFire : List VisitMove := comesBack 1 ++ [.canStart]

theorem swiping_fits :
    SwipesFit jsonOf (machineAfter .missing zeroedRing 0 []) (beforeFire ++ ([.onFire] ++ afterFire)) := by
  have hbefore : ∀ a ∈ beforeFire, ∀ v, a.Fits v := by simp [beforeFire, comesBack, VisitMove.Fits]
  have hafter : ∀ a ∈ afterFire, ∀ v, a.Fits v := by simp [afterFire, comesBack, VisitMove.Fits]
  have hgranted : (visitAfter jsonOf (machineAfter .missing zeroedRing 0 []) beforeFire).granted = true := by
    decide +kernel
  generalize machineAfter .missing zeroedRing 0 [] = m at *
  refine (along_append _ _ _).mpr ⟨along_of_forall fun a ha _ => hbefore a ha _, (along_append _ _ _).mpr ⟨?_, ?_⟩⟩
  · refine (along_snoc _ [] _).mpr ⟨along_nil _, ?_⟩
    rw [List.append_nil]
    exact hgranted
  · exact along_of_forall fun a ha _ => hafter a ha _

theorem four_hours :
    let m := machineAfter .missing zeroedRing 0 []
    let v := visitAfter jsonOf m (beforeFire ++ ([.onFire] ++ afterFire))
    v.page.swipe.1 = "Slide to stop for 4 h" ∧ v.underWay = 0 ∧
      ∃ word label seconds, (label, seconds) ∈ LABELS ∧
        (v.page.swipe.1 = s!"Slide to {word} for {label}" ∨
          (word = "stop" ∧ v.page.swipe.1 = "Overheat: stop not allowed")) ∧
        ∃ f, (v.step jsonOf .onFire).flights = v.flights ++ [f] ∧
          SwipeKept m.toFirmware m.clock seconds word (served m f phoneEnv "192.168.11.20") := by
  obtain ⟨hcount, hcan, hswipe⟩ := swipe_does_what_it_says jsonOf _ swiping_fits .missing zeroedRing 0 [] phoneEnv
    Commands.truncated_cast "192.168.11.20"
  exact ⟨by decide +kernel, by decide +kernel, hswipe (by decide +kernel)⟩

end FloorHeating.PageVisit
