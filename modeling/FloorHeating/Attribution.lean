import FloorHeating.Account
import FloorHeating.Lib.Decimal
import FloorHeating.Spec.Attribution

/-!
# Who switched the pump

The detail of an event has room for 23 characters. A minute count of three
digits and an address of fifteen characters need 24.
-/

open FloorHeating.Lib FloorHeating.Control FloorHeating.Account

namespace FloorHeating.Attribution

/-! ## The text -/

theorem minutes_lt (x : Switch) : x.minutes < 1000 := by
  have hclamp := clamp_duration_toNat x.duration_s
  have h60 : (60 : UInt32).toNat = 60 := rfl
  unfold Switch.minutes
  rw [UInt32.toNat_div, h60]
  omega

theorem attribution_toList (m : Nat) (who : String) :
    (attribution m who).toList = Nat.toDigits 10 m ++ (" min, ".toList ++ who.toList) := by
  have htext : (attribution m who).toList = (toString m).toList ++ " min, ".toList ++ who.toList := by
    unfold attribution
    simp only [String.toList_append]
    rfl
  have hdigits : (toString m).toList = Nat.toDigits 10 m := Nat.toList_repr
  rw [htext, hdigits, List.append_assoc]

theorem dotted_toList (a b c d : UInt8) :
    (dotted a b c d).toList = Nat.toDigits 10 a.toNat ++ '.' :: (Nat.toDigits 10 b.toNat ++ '.' ::
      (Nat.toDigits 10 c.toNat ++ '.' :: Nat.toDigits 10 d.toNat)) := by
  have htext : (dotted a b c d).toList = (toString a.toNat).toList ++ ".".toList ++ (toString b.toNat).toList ++
      ".".toList ++ (toString c.toNat).toList ++ ".".toList ++ (toString d.toNat).toList := by
    unfold dotted
    simp only [String.toList_append]
    rfl
  rw [htext]
  simp

theorem ascii_digits (n : Nat) : Ascii (Nat.toDigits 10 n) :=
  fun c hc => isDigit_utf8Size (toDigits_isDigit n c hc)

theorem ascii_cons {c : Char} {cs : List Char} (hc : c.utf8Size = 1) (hcs : Ascii cs) : Ascii (c :: cs) := by
  intro d hd
  rcases List.mem_cons.mp hd with rfl | hd
  · exact hc
  · exact hcs d hd

theorem client_text {who : String} (h : Client who) : Ascii who.toList ∧ who.toList.length ≤ 15 := by
  cases h with
  | admin => exact ⟨ascii_of_all (by decide), by decide⟩
  | ip a b c d =>
    have hlen : ∀ x : UInt8, (Nat.toDigits 10 x.toNat).length ≤ 3 := by
      intro x
      have hx := x.toNat_lt
      exact (Nat.length_toDigits_le_iff (by decide) (by decide)).mpr (by omega)
    rw [dotted_toList]
    constructor
    · exact ascii_append (ascii_digits _) (ascii_cons rfl (ascii_append (ascii_digits _)
        (ascii_cons rfl (ascii_append (ascii_digits _) (ascii_cons rfl (ascii_digits _))))))
    · have ha := hlen a
      have hb := hlen b
      have hc := hlen c
      have hd := hlen d
      simp only [List.length_append, List.length_cons]
      omega

theorem attribution_ascii (m : Nat) {who : String} (h : Client who) : Ascii (attribution m who).toList := by
  have hmid : Ascii " min, ".toList := ascii_of_all (by decide)
  rw [attribution_toList]
  exact ascii_append (ascii_digits m) (ascii_append hmid (client_text h).1)

/-! ## The two buffers -/

theorem snprintf_ascii {text : String} (h : Ascii text.toList) :
    snprintf DETAIL_SIZE text = String.ofList (text.toList.take 23) := by
  unfold snprintf
  rw [fitting_ascii h]
  rfl

/-- The second buffer is as long as the first, so it cuts nothing more. -/
theorem snprintf_twice {text : String} (h : Ascii text.toList) :
    snprintf DETAIL_SIZE (snprintf DETAIL_SIZE text) = String.ofList (text.toList.take 23) := by
  have hcut : Ascii (String.ofList (text.toList.take 23)).toList := by
    rw [String.toList_ofList]
    exact fun c hc => h c (List.mem_of_mem_take hc)
  rw [snprintf_ascii h, snprintf_ascii hcut, String.toList_ofList, List.take_take, Nat.min_self]

theorem length_attribution_iff {m : Nat} (hm : m < 1000) {who : String} (h : Client who) :
    (attribution m who).toList.length ≤ 23 ↔ ¬ (100 ≤ m ∧ who.length = 15) := by
  have hlong := (client_text h).2
  have h1 := Nat.length_toDigits_le_iff (b := 10) (n := m) (k := 2) (by decide) (by decide)
  have h3 := (Nat.length_toDigits_le_iff (b := 10) (n := m) (k := 3) (by decide) (by decide)).mpr (by omega)
  have hmid : " min, ".toList.length = 6 := by decide
  rw [String.length_toList] at hlong
  rw [attribution_toList, List.length_append, List.length_append, hmid, String.length_toList]
  omega

theorem detail_iff {m : Nat} (hm : m < 1000) {who : String} (h : Client who) :
    snprintf DETAIL_SIZE (snprintf DETAIL_SIZE (attribution m who)) = attribution m who ↔
      ¬ (100 ≤ m ∧ who.length = 15) := by
  rw [snprintf_twice (attribution_ascii m h), ← length_attribution_iff hm h]
  constructor
  · intro he
    have hlen := congrArg (fun t : String => t.toList.length) he
    simp only [String.toList_ofList, List.length_take] at hlen
    omega
  · intro hlen
    rw [List.take_of_length_le hlen, String.ofList_toList]

theorem attribution_injective {m m' : Nat} {who who' : String} (h : attribution m who = attribution m' who') :
    m = m' ∧ who = who' := by
  have hstop : ∀ w : String, ∀ c ∈ (" min, ".toList ++ w.toList).head?, c.isDigit = false := by
    intro w c hc
    obtain rfl : c = ' ' := (Option.some.inj hc).symm
    decide
  have hread : ∀ (n : Nat) (w : String),
      digits (attribution n w).toList = (Nat.toDigits 10 n, " min, ".toList ++ w.toList) := by
    intro n w
    rw [attribution_toList]
    exact digits_append (toDigits_isDigit n) (hstop w)
  have hpair := hread m who
  rw [h, hread m' who', Prod.mk.injEq] at hpair
  obtain ⟨hdigits, hrest⟩ := hpair
  constructor
  · have hval := congrArg (fun ds => Nat.ofDigitChars 10 ds 0) hdigits
    simpa [Nat.ofDigitChars_ten_toDigits] using hval.symm
  · exact (String.toList_inj.mp (List.append_cancel_left hrest)).symm

/-! ## The event -/

theorem switch_event (x : Switch) :
    ∃ e, x.events = [e] ∧ e.type = .EV_PUMP ∧
      e.detail = snprintf DETAIL_SIZE (snprintf DETAIL_SIZE (attribution x.minutes x.who)) := by
  unfold Switch.events
  have hswitch : (x.command.exec x.before).s_state.on ≠ x.before.s_state.on := x.switched
  cases hs : x.command.seen x.before with
  | none =>
    rw [exec_refused hs] at hswitch
    exact absurd rfl hswitch
  | some s =>
    have hon : (decisionOf x.before x.command s).1.on ≠ s.on := by
      rw [← exec_s_state hs, (seen_frame hs).1]
      exact hswitch
    have hsensed : sensed x.before x.command = {} := rfl
    have hdetail : detailOf x.command = some (snprintf DETAIL_SIZE (attribution x.minutes x.who)) := by
      unfold Switch.command detailOf manual_detail
      simp only [if_neg x.ordered]
      rfl
    rw [events_eq hs, decision_result]
    unfold sectionEvents sensorEvents overheatEvents pumpEvents
    simp only [hsensed, hon, hdetail, ne_eq, not_false_eq_true, decide_true, if_true, Bool.false_eq_true, or_self,
      if_false, List.nil_append, List.cons.injEq, and_true]
    exact ⟨_, rfl, rfl, rfl⟩

/-- Every manual switch carries its minutes and its client in full, unless both are of full length;
and details in full tell the commands apart. -/
theorem switches_attributed (x y : Switch) :
    ∃ e f, x.events = [e] ∧ y.events = [f] ∧ e.type = .EV_PUMP ∧
      (e.detail = attribution x.minutes x.who ↔ ¬ x.Overlong) ∧
      (¬ x.Overlong → ¬ y.Overlong → e.detail = f.detail → x.minutes = y.minutes ∧ x.who = y.who) := by
  obtain ⟨e, hx, htype, he⟩ := switch_event x
  obtain ⟨f, hy, -, hf⟩ := switch_event y
  have hxiff := detail_iff (minutes_lt x) x.client
  have hyiff := detail_iff (minutes_lt y) y.client
  refine ⟨e, f, hx, hy, htype, ?_, ?_⟩
  · rw [he]
    exact hxiff
  · intro hxo hyo hsame
    rw [he, hf] at hsame
    have hfull : attribution x.minutes x.who = attribution y.minutes y.who := by
      calc attribution x.minutes x.who
          = snprintf DETAIL_SIZE (snprintf DETAIL_SIZE (attribution x.minutes x.who)) := (hxiff.mpr hxo).symm
        _ = snprintf DETAIL_SIZE (snprintf DETAIL_SIZE (attribution y.minutes y.who)) := hsame
        _ = attribution y.minutes y.who := hyiff.mpr hyo
    exact attribution_injective hfull

/-- The pump is off, and a client of the home network starts it for 99 or for 100 minutes. -/
def startedBy (d : UInt8) (long : Bool) : Switch where
  before := control_start 0
  settings := default_settings
  date := ⟨false, 0⟩
  now_s := 0
  manual := .Start
  duration_s := if long then 6000 else 5940
  who := dotted 192 168 100 d
  ordered := by decide
  client := .ip 192 168 100 d
  switched := by cases long <;> exact fun h => Bool.noConfusion (h : true = false)

theorem two_clients_told_apart :
    ¬ (startedBy 101 false).Overlong ∧
      ∃ e f, (startedBy 101 false).events = [e] ∧ (startedBy 102 false).events = [f] ∧
        e.detail = "99 min, 192.168.100.101" ∧ e.detail ≠ f.detail := by
  obtain ⟨e, f, he, hf, -, hfull, htell⟩ := switches_attributed (startedBy 101 false) (startedBy 102 false)
  have hx : ¬ (startedBy 101 false).Overlong := by
    unfold Switch.Overlong
    decide
  have hy : ¬ (startedBy 102 false).Overlong := by
    unfold Switch.Overlong
    decide
  refine ⟨hx, e, f, he, hf, ?_, fun hsame => ?_⟩
  · rw [hfull.mpr hx]
    decide
  · exact absurd (htell hx hy hsame).2 (by decide)

theorem two_clients_one_detail :
    (startedBy 101 true).who ≠ (startedBy 102 true).who ∧
      (startedBy 101 true).events.map (fun e => e.detail) = ["100 min, 192.168.100.10"] ∧
      (startedBy 102 true).events.map (fun e => e.detail) = ["100 min, 192.168.100.10"] ∧
      attribution (startedBy 101 true).minutes (startedBy 101 true).who = "100 min, 192.168.100.101" := by
  decide +kernel

end FloorHeating.Attribution
