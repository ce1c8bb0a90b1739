import FloorHeating.App
import FloorHeating.SettingsPatch
import FloorHeating.Spec.Durable

/-!
# What the reply to new thresholds promises

Nothing but another change of the thresholds and a reboot touches the store, so
a run without such a change is in one of two phases: before its first reboot,
and after.
-/

open FloorHeating.Lib FloorHeating.Http FloorHeating.MachineRun FloorHeating.Documents

namespace FloorHeating.Durable

/-! ## What leaves the store alone -/

section Request

variable {method : HttpMethod} {uri : String} {req : Request}

theorem serve_store (h : ¬ (uri ∈ settingsRoutes ∧ MayChange method uri req)) (env : HttpEnv) (f : Firmware) :
    (serve method uri env f req).1.store = f.store := by
  have hpump (who : Request → String) : (Http.pump_command who env f req).1.store = f.store := by
    unfold Http.pump_command
    split <;> rfl
  by_cases hmay : MayChange method uri req
  · have huri : uri ∉ settingsRoutes := fun huri => h ⟨huri, hmay⟩
    obtain ⟨rfl, ⟨hroute, -⟩ | ⟨hroute, -⟩⟩ := hmay
    · simp only [List.mem_cons, List.not_mem_nil, or_false] at hroute
      rcases hroute with rfl | rfl
      · change (guarded .HI_GUARD_MUTATION (Http.pump_command Request.client_ip) env f req).1.store = f.store
        unfold guarded
        split
        · rfl
        · exact hpump _
      · exact absurd (by simp [settingsRoutes]) huri
    · simp only [List.mem_cons, List.not_mem_nil, or_false] at hroute
      rcases hroute with rfl | rfl
      · change (admin_ok (Http.pump_command fun _ => "admin") env f req).1.store = f.store
        unfold admin_ok
        split
        · exact hpump _
        · rfl
      · exact absurd (by simp [settingsRoutes]) huri
  · exact congrArg Firmware.store ((serve_unpermitted hmay env).1 f)

theorem serve_settings (huri : uri ∈ settingsRoutes) (hmay : MayChange method uri req) {body : Json}
    (hbody : req.read_json = some body) (env : HttpEnv) (f : Firmware) :
    serve method uri env f req =
      let r := FloorHeating.apply_settings env.to_int16 f.store env.io body
      ({ f with store := r.1 }, .reply r.2) := by
  have hhandler : Http.apply_settings env f req =
      let r := FloorHeating.apply_settings env.to_int16 f.store env.io body
      ({ f with store := r.1 }, .reply r.2) := by
    unfold Http.apply_settings
    rw [hbody]
  obtain ⟨rfl, hroute⟩ := hmay
  simp only [settingsRoutes, List.mem_cons, List.not_mem_nil, or_false] at huri
  rcases huri with rfl | rfl
  · rcases hroute with ⟨-, hguard⟩ | ⟨hadmin, -⟩
    · change guarded .HI_GUARD_MUTATION Http.apply_settings env f req = _
      unfold guarded
      rw [if_neg (not_not.mpr hguard)]
      exact hhandler
    · simp at hadmin
  · rcases hroute with ⟨hsession, -⟩ | ⟨-, hvalid⟩
    · simp at hsession
    · change admin_ok Http.apply_settings env f req = _
      unfold admin_ok
      rw [if_pos hvalid]
      exact hhandler

end Request

theorem quiet_step {a : Move} (ha : ¬ a.MaySet) {m m' : Machine} (hm : Moved m a m') :
    m'.store = (if a.isReboot then settings_init m.store.nvs else m.store) ∧
      ∃ new, m'.documents = m.documents ++ new ∧ ∀ doc ∈ new, Shows doc (settings_get m.store) := by
  have hsilent : ∃ new, m.documents = m.documents ++ new ∧ ∀ doc ∈ new, Shows doc (settings_get m.store) :=
    ⟨[], (List.append_nil _).symm, by simp⟩
  cases hm with
  | still a hup =>
    rw [hup]
    exact ⟨rfl, hsilent⟩
  | serves method uri env req hfree => exact ⟨serve_store ha { env with now_s := m.clock } m.toFirmware, hsilent⟩
  | sends i unix system c hc =>
    refine ⟨rfl, [_], rfl, fun doc hdoc => ?_⟩
    rw [List.mem_singleton.mp hdoc]
    exact ⟨rfl, rfl, rfl⟩
  | _ => exact ⟨rfl, hsilent⟩

theorem quiet_run {l : List Move} (hquiet : ∀ a ∈ l, ¬ a.MaySet) (m : Machine) :
    (run Machine.step m l).store = (if l.any Move.isReboot then settings_init m.store.nvs else m.store) ∧
      ∃ new, (run Machine.step m l).documents = m.documents ++ new ∧
        ∀ doc ∈ new, Shows doc (settings_get m.store) ∨ Shows doc m.store.nvs.initial := by
  induction l using List.reverseRecOn with
  | nil => exact ⟨rfl, [], (List.append_nil _).symm, by simp⟩
  | append_singleton l a ih =>
    obtain ⟨hstore, new, hdocuments, hshow⟩ := ih fun b hb => hquiet b (by simp [hb])
    obtain ⟨hstep, more, hmore, hshow'⟩ := quiet_step (hquiet a (by simp)) (step_moved (run Machine.step m l) a)
    rw [hstore] at hstep hshow'
    rw [run_snoc, List.any_append]
    refine ⟨?_, new ++ more, by rw [hmore, hdocuments, List.append_assoc], fun doc hdoc => ?_⟩
    · rw [hstep]
      cases ha : a.isReboot with
      | true =>
        simp only [if_true, List.any_cons, ha, Bool.true_or, Bool.or_true]
        split <;> rfl
      | false => simp [ha]
    · rcases List.mem_append.mp hdoc with hdoc | hdoc
      · exact hshow doc hdoc
      · have hlast := hshow' doc hdoc
        split at hlast
        · right
          rwa [settings_get, Thresholds.settings_init_ram] at hlast
        · exact Or.inl hlast

/-! ## The reply -/

theorem sent_shows (c : Control) (t : Settings) (env : StatusEnv) :
    ∃ doc, Reply.status.sent c t env = .json "200 OK" doc ∧ Shows doc t := ⟨_, rfl, rfl, rfl, rfl⟩

theorem reply_shows (to_int16 : Rat → Int) (st : Store) (io : NvsCalls) (body : Json) :
    let r := FloorHeating.apply_settings to_int16 st io body
    let t := settings_get r.1
    t.Sane ∧ ((r.2 = .status ∧ r.1.nvs = .blob t) ∨
      (r.2 = .error "500 Internal Server Error" "save_failed" ∧ r.1.nvs = st.nvs)) := by
  dsimp only
  rw [SettingsPatch.apply_settings_eq, Thresholds.settings_set_eq]
  generalize SettingsPatch.asked to_int16 st.s_settings body = asked
  dsimp only
  generalize (if io.nvs_open = .ESP_OK then
    (if io.nvs_set_blob = .ESP_OK then io.nvs_commit else io.nvs_set_blob) else io.nvs_open) = err
  refine ⟨Thresholds.sanitize_sane asked, ?_⟩
  by_cases herr : err ≠ .ESP_OK
  · rw [if_pos herr]
    exact Or.inr ⟨rfl, if_neg herr⟩
  · rw [if_neg herr]
    exact Or.inl ⟨rfl, if_pos (not_not.mp herr)⟩

theorem step_settings {uri : String} (huri : uri ∈ settingsRoutes) (m : Machine) (env : HttpEnv) (req : Request) :
    m.step (.request .HTTP_POST uri env req) =
      { m with toFirmware := (serve .HTTP_POST uri { env with now_s := m.clock } m.toFirmware req).1 } := by
  have hcommand : uri ∉ commands := by
    simp only [settingsRoutes, List.mem_cons, List.not_mem_nil, or_false] at huri
    rcases huri with rfl | rfl <;> decide
  have hfree : m.blocks uri = false := by simp [Machine.blocks, hcommand]
  change (if m.blocks uri then m else _) = _
  rw [hfree]
  rfl

/-- A 200 means that the new thresholds stay, over any number of reboots, until somebody changes them
again, and its status shows them however late it is built; a `save_failed`, that they stay until the next reboot,
which brings back those from before. -/
theorem reply_tells_what_lasts (nvs : Nvs) (ring : EventRing) (boot : Int) (h : List Move) (env : HttpEnv)
    {uri : String} {req : Request} {body : Json} (huri : uri ∈ settingsRoutes)
    (hmay : MayChange .HTTP_POST uri req) (hbody : req.read_json = some body) {l : List Move}
    (hquiet : ∀ a ∈ l, ¬ a.MaySet) :
    let m := machineAfter nvs ring boot h
    let r := serve .HTTP_POST uri { env with now_s := m.clock } m.toFirmware req
    let m' := machineAfter nvs ring boot (h ++ .request .HTTP_POST uri env req :: l)
    ∃ t new, settings_get r.1.store = t ∧ t.Sane ∧ m'.documents = m.documents ++ new ∧
      ((r.2 = .reply .status ∧
          (∀ later, ∃ doc, Reply.status.sent m'.task.control (settings_get m'.store) later = .json "200 OK" doc ∧
            Shows doc t) ∧
          settings_get m'.store = t ∧ ∀ doc ∈ new, Shows doc t) ∨
        (r.2 = .reply (.error "500 Internal Server Error" "save_failed") ∧
          settings_get m'.store = (if l.any Move.isReboot then m.store.nvs.initial else t) ∧
          ∀ doc ∈ new, Shows doc t ∨ Shows doc m.store.nvs.initial)) := by
  have hrun : machineAfter nvs ring boot (h ++ .request .HTTP_POST uri env req :: l) =
      run Machine.step ((machineAfter nvs ring boot h).step (.request .HTTP_POST uri env req)) l := run_append ..
  rw [hrun]
  generalize machineAfter nvs ring boot h = m
  have hserve := serve_settings huri hmay hbody { env with now_s := m.clock } m.toFirmware
  have hreply := reply_shows env.to_int16 m.store env.io body
  rw [step_settings huri]
  dsimp only at hreply ⊢
  rw [hserve]
  generalize FloorHeating.apply_settings env.to_int16 m.store env.io body = r at hreply
  dsimp only
  obtain ⟨hstore, new, hdocuments, hshow⟩ :=
    quiet_run hquiet { m with toFirmware := { m.toFirmware with store := r.1 } }
  obtain ⟨hsane, ⟨hok, hnvs⟩ | ⟨hfailed, hnvs⟩⟩ := hreply
  · have hinitial : r.1.nvs.initial = settings_get r.1 := by
      rw [hnvs]
      exact Thresholds.nearestSane_of_sane hsane
    have hlasts : settings_get (run Machine.step { m with toFirmware := { m.toFirmware with store := r.1 } } l).store =
        settings_get r.1 := by
      rw [hstore]
      split
      · rw [settings_get, Thresholds.settings_init_ram]
        exact hinitial
      · rfl
    refine ⟨settings_get r.1, new, rfl, hsane, hdocuments, Or.inl ⟨congrArg Response.reply hok, ?_, hlasts, ?_⟩⟩
    · intro later
      rw [hlasts]
      exact sent_shows _ _ later
    · intro doc' hdoc'
      have hboth := hshow doc' hdoc'
      dsimp only at hboth
      rw [hinitial] at hboth
      exact hboth.elim id id
  · refine ⟨settings_get r.1, new, rfl, hsane, hdocuments, Or.inr ⟨congrArg Response.reply hfailed, ?_, ?_⟩⟩
    · rw [hstore]
      dsimp only
      rw [hnvs]
      split
      · rw [settings_get, Thresholds.settings_init_ram]
      · rfl
    · intro doc' hdoc'
      have hboth := hshow doc' hdoc'
      dsimp only at hboth
      rwa [hnvs] at hboth

def warmer : Request := { AppPage.phone with read_json := some (.obj [("start_c", .num 32)]) }

theorem warmer_after_reboot :
    let f := (machineAfter .missing zeroedRing 0 []).toFirmware
    let m := machineAfter .missing zeroedRing 0 [.request .HTTP_POST "/api/settings" AppPage.phoneEnv warmer, .reboot 5]
    ∃ t, (serve .HTTP_POST "/api/settings" { AppPage.phoneEnv with now_s := 0 } f warmer).2 = .reply .status ∧
      (∀ later, ∃ doc, Reply.status.sent m.task.control (settings_get m.store) later = .json "200 OK" doc ∧
        Shows doc t) ∧ settings_get m.store = t := by
  have hmay : MayChange .HTTP_POST "/api/settings" warmer := ⟨rfl, Or.inl ⟨by simp, rfl⟩⟩
  obtain ⟨t, new, -, -, -, ⟨hreply, hshow, hstore, -⟩ | ⟨hfailed, -, -⟩⟩ := reply_tells_what_lasts .missing
    zeroedRing 0 [] AppPage.phoneEnv (by simp [settingsRoutes]) hmay rfl (l := [.reboot 5]) (by simp [Move.MaySet])
  · exact ⟨t, hreply, hshow, hstore⟩
  · rw [serve_settings (by simp [settingsRoutes]) hmay rfl] at hfailed
    cases hfailed

end FloorHeating.Durable
