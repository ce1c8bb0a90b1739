import FloorHeating.Spec.Document

/-!
# The streamed history is the document

The buffer is flushed with room for one more entry, so it never overflows; the
bounds on its length at the seams are what the two margins are for.
-/

open FloorHeating.Lib

namespace FloorHeating.Streaming

def allSent : Nat → EspErr := fun _ => .ESP_OK

structure Written (s : Stream) (text : List Char) : Prop where
  text : s.sent.flatten ++ s.buf = text
  chunks : ∀ c ∈ s.sent, c ≠ [] ∧ c.length ≤ BUF_SIZE

/-- The call goes through and leaves at most `n` characters in the buffer. -/
def Leaves (x : Except SendError Stream) (text : List Char) (n : Nat) : Prop :=
  ∃ s, x = .ok s ∧ Written s text ∧ s.buf.length ≤ n

theorem leaves_bind {x : Except SendError Stream} {f : Stream → Except SendError Stream}
    {text text' : List Char} {n n' : Nat} (hx : Leaves x text n)
    (hf : ∀ s, Written s text → s.buf.length ≤ n → Leaves (f s) text' n') : Leaves (x >>= f) text' n' := by
  obtain ⟨s, rfl, hs, hn⟩ := hx
  exact hf s hs hn

/-- A loop that leaves at most `n` characters after each round. -/
theorem leaves_foldlM {α : Type} {f : Stream → α → Except SendError Stream} {written : α → List Char} {n : Nat}
    {l : List α}
    (hf : ∀ a ∈ l, ∀ s text, Written s text → s.buf.length ≤ n → Leaves (f s a) (text ++ written a) n)
    {s : Stream} {text : List Char} (hs : Written s text) (hn : s.buf.length ≤ n) :
    Leaves (l.foldlM f s) (text ++ l.flatMap written) n := by
  induction l generalizing s text with
  | nil => exact ⟨s, rfl, by simpa using hs, hn⟩
  | cons a l ih =>
    rw [List.foldlM_cons, List.flatMap_cons, ← List.append_assoc]
    apply leaves_bind (hf a List.mem_cons_self s text hs hn)
    intro s hs hn
    exact ih (fun b hb => hf b (List.mem_cons_of_mem a hb)) hs hn

/-! ## One call -/

theorem snprintf_ok {s : Stream} {t : String} (h : s.buf.length + t.toList.length < BUF_SIZE) :
    s.snprintf t = .ok { s with buf := s.buf ++ t.toList } := by
  unfold Stream.snprintf
  rw [String.length_toList] at h
  rw [if_pos h]

section Calls

variable {s : Stream} {text : List Char} (hs : Written s text)

include hs

theorem snprintf_leaves {t : String} {n : Nat} (ht : s.buf.length + t.toList.length ≤ n) (hn : n < BUF_SIZE) :
    Leaves (s.snprintf t) (text ++ t.toList) n := by
  refine ⟨_, snprintf_ok (by omega), ⟨?_, hs.chunks⟩, ?_⟩
  · rw [← hs.text, List.append_assoc]
  · rw [List.length_append]
    exact ht

theorem put_leaves {c : Char} {n : Nat} (hlen : s.buf.length < n) (hn : n ≤ BUF_SIZE) :
    Leaves (s.put c) (text ++ [c]) n := by
  refine ⟨{ s with buf := s.buf ++ [c] }, ?_, ⟨?_, hs.chunks⟩, ?_⟩
  · unfold Stream.put
    rw [if_pos (by omega)]
  · rw [← hs.text, List.append_assoc]
  · rw [List.length_append, List.length_singleton]
    exact hlen

theorem send_chunk_leaves (hne : s.buf ≠ []) (hlen : s.buf.length ≤ BUF_SIZE) :
    Leaves (s.send_chunk allSent) text 0 := by
  refine ⟨⟨s.sent ++ [s.buf], []⟩, ?_, ⟨?_, ?_⟩, Nat.le_refl 0⟩
  · unfold Stream.send_chunk
    exact if_pos rfl
  · rw [List.flatten_append, List.flatten_singleton, List.append_nil, hs.text]
  · intro c hc
    rcases List.mem_append.mp hc with hc | hc
    · exact hs.chunks c hc
    · rw [List.mem_singleton.mp hc]
      exact ⟨hne, hlen⟩

theorem flush_leaves (margin : Nat) (hlen : s.buf.length ≤ BUF_SIZE) :
    Leaves (s.flush_above allSent margin) text (BUF_SIZE - margin) := by
  unfold Stream.flush_above
  split
  · have hne : s.buf ≠ [] := by
      intro he
      simp_all
    obtain ⟨s', he, hs', hn⟩ := send_chunk_leaves hs hne hlen
    exact ⟨s', he, hs', by omega⟩
  · exact ⟨s, rfl, hs, by omega⟩

end Calls

/-! ## The two loops -/

theorem toString_length_le {n : Int} {k : Nat} (hk : 0 < k) (hn : n.natAbs < 10 ^ k) :
    (toString n).toList.length ≤ k + 1 := by
  have hdigits := (Nat.length_toDigits_le_iff (by decide) hk).mpr hn
  rw [toList_toString, List.length_append]
  split
  · rw [List.length_singleton]
    omega
  · rw [List.length_nil]
    omega

/-- `-32767` is the longest. -/
theorem entry_length_le (t : Int16) : (entry t).length ≤ 6 := by
  unfold entry
  split
  · decide
  · have hlow := t.le_toInt
    have hhigh := t.toInt_lt
    exact toString_length_le (k := 5) (by decide) (by omega)

def separated (e : Int16 × Nat) : List Char := (if e.2 = 0 then [] else [',']) ++ entry e.1

theorem put_temp_leaves (e : Int16 × Nat) {s : Stream} {text : List Char} (hs : Written s text)
    (hn : s.buf.length ≤ 503) : Leaves (s.put_temp allSent e) (text ++ separated e) 503 := by
  unfold Stream.put_temp
  apply leaves_bind (flush_leaves hs 16 (Nat.le_trans hn (by decide)))
  intro s hs hn
  have ht : ((if e.2 = 0 then "" else ",") ++
      if e.1 = HISTORY_NO_READING then "null" else toString e.1.toInt).toList = separated e := by
    unfold separated entry
    rw [String.toList_append]
    split <;> split <;> rfl
  have hlen : (separated e).length ≤ 7 := by
    have := entry_length_le e.1
    unfold separated
    rw [List.length_append]
    split
    · simpa using Nat.le_succ_of_le this
    · rw [List.length_singleton]
      omega
  rw [← ht] at hlen ⊢
  exact snprintf_leaves hs (Nat.add_le_add hn hlen) (by decide)

theorem put_pump_leaves (on : Bool) {s : Stream} {text : List Char} (hs : Written s text)
    (hn : s.buf.length ≤ 510) : Leaves (s.put_pump allSent on) (text ++ [pump_char on]) 505 := by
  unfold Stream.put_pump
  apply leaves_bind (flush_leaves hs 8 (Nat.le_trans hn (by decide)))
  intro s hs hn
  exact put_leaves hs (Nat.lt_succ_of_le hn) (by decide)

theorem separated_eq (temps : List Int16) :
    temps.zipIdx.flatMap separated = [','].intercalate (temps.map entry) := by
  have hlater : ∀ (l : List Int16) (k : Nat),
      (l.zipIdx (k + 1)).flatMap separated = l.flatMap fun t => ',' :: entry t := by
    intro l
    induction l with
    | nil => exact fun _ => rfl
    | cons t l ih => intro k; simp [List.zipIdx_cons, separated, ih]
  cases temps with
  | nil => rfl
  | cons t l =>
    rw [List.zipIdx_cons, List.flatMap_cons, hlater l 0, List.map_cons]
    change entry t ++ _ = _
    induction l generalizing t with
    | nil => simp
    | cons u l ih =>
      rw [List.flatMap_cons, List.map_cons, List.intercalate_cons_cons, ← ih u]
      simp

/-- Without samples the buffer stays as short as the header. -/
theorem temps_leave (temps : List Int16) {s : Stream} {text : List Char} (hs : Written s text)
    (hn : s.buf.length ≤ 100) :
    Leaves (temps.zipIdx.foldlM (Stream.put_temp allSent) s) (text ++ [','].intercalate (temps.map entry))
      (if temps = [] then 100 else 503) := by
  cases temps with
  | nil => exact ⟨s, rfl, by simpa using hs, hn⟩
  | cons t l =>
    rw [← separated_eq, if_neg (by simp)]
    exact leaves_foldlM (fun e _ s text hs hn => put_temp_leaves e hs hn) hs (by omega)

/-- With samples the loop ends right after a flush check; without, the buffer is still short. -/
theorem pumps_leave (pumps : List Bool) {s : Stream} {text : List Char} (hs : Written s text)
    (hn : s.buf.length ≤ 510) (hshort : pumps = [] → s.buf.length ≤ 505) :
    Leaves (pumps.foldlM (Stream.put_pump allSent) s) (text ++ pumps.map pump_char) 505 := by
  have htext : ∀ l : List Bool, (l.flatMap fun on => [pump_char on]) = l.map pump_char := by
    intro l
    induction l with
    | nil => rfl
    | cons on l ih => rw [List.flatMap_cons, ih]; rfl
  cases pumps with
  | nil => exact ⟨s, rfl, by simpa using hs, hshort rfl⟩
  | cons on l =>
    rw [List.foldlM_cons, List.map_cons, ← List.singleton_append, ← List.append_assoc]
    apply leaves_bind (put_pump_leaves on hs hn)
    intro s hs hn
    rw [← htext]
    exact leaves_foldlM (fun on _ s text hs hn => put_pump_leaves on hs (by omega)) hs hn

/-! ## The whole response -/

theorem header_eq (newest newest_age_s : Int64) :
    (header newest newest_age_s).toList =
      "\x7b\"period_s\":60,\"newest\":".toList ++ (toString newest.toInt).toList ++
        ",\"newest_age_s\":".toList ++ (toString newest_age_s.toInt).toList ++ ",\"t\":[".toList := by
  unfold header
  simp only [String.toList_append]
  rfl

theorem header_length_le (newest newest_age_s : Int64) : (header newest newest_age_s).toList.length ≤ 100 := by
  have hnum : ∀ x : Int64, (toString x.toInt).toList.length ≤ 20 := by
    intro x
    have hlow := x.le_toInt
    have hhigh := x.toInt_lt
    exact toString_length_le (k := 19) (by decide) (by omega)
  have h1 := hnum newest
  have h2 := hnum newest_age_s
  have hfixed : "\x7b\"period_s\":60,\"newest\":".toList.length = 24 ∧ ",\"newest_age_s\":".toList.length = 16 ∧
      ",\"t\":[".toList.length = 6 := by decide
  rw [header_eq]
  simp only [List.length_append]
  omega

def send_body (samples : List (Int16 × Bool)) (newest newest_age_s : Int64) : Except SendError Stream := do
  let s ← Stream.snprintf ⟨[], []⟩ (header newest newest_age_s)
  let s ← (samples.map Prod.fst).zipIdx.foldlM (Stream.put_temp allSent) s
  let s ← s.snprintf "],\"p\":\""
  (samples.map Prod.snd).foldlM (Stream.put_pump allSent) s

def document_body (samples : List (Int16 × Bool)) (newest newest_age_s : Int64) : List Char :=
  (header newest newest_age_s).toList ++ [','].intercalate ((samples.map Prod.fst).map entry) ++
    "],\"p\":\"".toList ++ (samples.map Prod.snd).map pump_char

theorem body_leaves (samples : List (Int16 × Bool)) (newest newest_age_s : Int64) :
    Leaves (send_body samples newest newest_age_s) (document_body samples newest newest_age_s) 505 := by
  have hstart : Written ⟨[], []⟩ [] := ⟨rfl, by simp⟩
  have hseam : "],\"p\":\"".toList.length = 7 := by decide
  have hmap : samples.map Prod.snd = [] → samples.map Prod.fst = [] := by simp
  unfold send_body document_body
  apply leaves_bind (snprintf_leaves hstart (n := 100) (by simpa using header_length_le _ _) (by decide))
  intro s hs hn
  apply leaves_bind (temps_leave _ hs hn)
  intro s hs hn
  have hlong : s.buf.length ≤ 503 := by
    split at hn <;> omega
  have hshort : samples.map Prod.snd = [] → s.buf.length ≤ 100 := by
    intro he
    rwa [if_pos (hmap he)] at hn
  apply leaves_bind (snprintf_leaves hs (n := s.buf.length + 7) (by omega) (by unfold BUF_SIZE; omega))
  intro s' hs hn
  exact pumps_leave _ hs (by omega) fun he => by have := hshort he; omega

theorem document_eq (samples : List (Int16 × Bool)) (newest newest_age_s : Int64) :
    document_body samples newest newest_age_s ++ "\"\x7d".toList = document samples newest newest_age_s := by
  unfold document document_body
  rw [header_eq, List.map_map, List.map_map]
  rfl

theorem sent_document (samples : List (Int16 × Bool)) (newest newest_age_s : Int64) :
    ∃ body, send_samples allSent samples newest newest_age_s = .ok (body ++ [[]]) ∧
      body.flatten = document samples newest newest_age_s ∧ ∀ c ∈ body, c ≠ [] ∧ c.length ≤ BUF_SIZE := by
  have hsend : send_samples allSent samples newest newest_age_s = (do
      let s ← send_body samples newest newest_age_s
      let s ← s.snprintf "\"\x7d"
      let s ← s.send_chunk allSent
      let s ← s.send_chunk allSent
      return s.sent) := by
    unfold send_samples send_body
    simp only [bind_assoc]
  obtain ⟨s, he, hs, hn⟩ := body_leaves samples newest newest_age_s
  have htail : "\"\x7d".toList.length = 2 := by decide
  have hlen : s.buf.length + "\"\x7d".toList.length < BUF_SIZE := by
    unfold BUF_SIZE
    omega
  refine ⟨s.sent ++ [s.buf ++ "\"\x7d".toList], ?_, ?_, ?_⟩
  · rw [hsend, he]
    change (s.snprintf "\"\x7d" >>= _) = _
    rw [snprintf_ok hlen]
    rfl
  · rw [← document_eq, ← hs.text]
    simp
  · intro c hc
    rcases List.mem_append.mp hc with hc | hc
    · exact hs.chunks c hc
    · rw [List.mem_singleton.mp hc, List.length_append]
      exact ⟨by simp, by omega⟩

/-! ## Read back -/

def entry_json (t : Int16) : Json := if t = -32768 then .null else .num t.toInt

theorem reads_entry (fuel : Nat) (t : Int16) : Json.Reads (fuel + 1) (entry t) (entry_json t) := by
  unfold entry entry_json HISTORY_NO_READING
  split
  · exact Json.reads_null fuel
  · exact Json.reads_int fuel t.toInt

theorem pumps_plain (pumps : List Bool) : Json.Plain (pumps.map pump_char) := by
  intro c hc
  obtain ⟨on, -, rfl⟩ := List.mem_map.mp hc
  cases on <;> decide

def members (samples : List (Int16 × Bool)) (newest newest_age_s : Int64) : List (String × List Char × Json) :=
  [("period_s", (toString (60 : Int)).toList, .num (60 : Int)),
    ("newest", (toString newest.toInt).toList, .num newest.toInt),
    ("newest_age_s", (toString newest_age_s.toInt).toList, .num newest_age_s.toInt),
    ("t", '[' :: ([','].intercalate ((samples.map fun s => (entry s.1, entry_json s.1)).map Prod.fst) ++ [']']),
      .arr ((samples.map fun s => (entry s.1, entry_json s.1)).map Prod.snd)),
    ("p", '"' :: (((samples.map Prod.snd).map pump_char) ++ ['"']),
      .str (String.ofList ((samples.map Prod.snd).map pump_char)))]

theorem members_text (samples : List (Int16 × Bool)) (newest newest_age_s : Int64) :
    '\x7b' :: ([','].intercalate ((members samples newest newest_age_s).map fun m => Json.memberText m.1 m.2.1) ++
      ['\x7d']) = document samples newest newest_age_s := by
  have h60 : (toString (60 : Int)).toList = ['6', '0'] := by decide
  unfold document members
  simp only [List.map_cons, List.map_nil, List.intercalate_cons_cons, List.intercalate_singleton, Json.memberText,
    List.map_map, h60]
  simp
  rfl

theorem members_read {samples : List (Int16 × Bool)} {fuel : Nat} (hf : samples.length ≤ fuel)
    (newest newest_age_s : Int64) :
    ∀ m ∈ members samples newest newest_age_s, Json.Plain m.1.toList ∧ Json.Reads (fuel + 2) m.2.1 m.2.2 := by
  have hentries : ∀ p ∈ samples.map (fun s => (entry s.1, entry_json s.1)), Json.Reads (fuel + 1) p.1 p.2 := by
    intro p hp
    obtain ⟨s, -, rfl⟩ := List.mem_map.mp hp
    exact reads_entry fuel s.1
  have hlen : (samples.map fun s => (entry s.1, entry_json s.1)).length ≤ fuel + 1 := by
    rw [List.length_map]
    omega
  have hkeys : ∀ m ∈ members samples newest newest_age_s, Json.Plain m.1.toList := by
    simp only [members, List.forall_mem_cons, List.not_mem_nil, false_imp_iff, implies_true, and_true]
    refine ⟨?_, ?_, ?_, ?_, ?_⟩
    all_goals exact Json.plain_of_all (by decide)
  intro m hm
  refine ⟨hkeys m hm, ?_⟩
  simp only [members, List.mem_cons, List.not_mem_nil, or_false] at hm
  rcases hm with rfl | rfl | rfl | rfl | rfl
  · exact Json.reads_int (fuel + 1) 60
  · exact Json.reads_int (fuel + 1) newest.toInt
  · exact Json.reads_int (fuel + 1) newest_age_s.toInt
  · exact Json.reads_arr hentries hlen
  · exact Json.reads_str (fuel + 1) (pumps_plain _)

/-- Room for the members, and for the entries of `t`. -/
theorem length_document (samples : List (Int16 × Bool)) (newest newest_age_s : Int64) :
    ∃ k, (document samples newest newest_age_s).length = k + 2 ∧ samples.length ≤ k ∧ 5 ≤ k := by
  have hseam : "],\"p\":\"".toList.length = 7 := by decide
  have htail : "\"\x7d".toList.length = 2 := by decide
  have hlen : (document samples newest newest_age_s).length =
      (header newest newest_age_s).toList.length +
        ([','].intercalate ((samples.map Prod.fst).map entry)).length + samples.length + 9 := by
    rw [← document_eq]
    simp only [document_body, List.length_append, List.length_map, hseam, htail]
    omega
  exact ⟨_, hlen, by omega, by omega⟩

theorem parse_document (samples : List (Int16 × Bool)) (newest newest_age_s : Int64) :
    Json.parse (String.ofList (document samples newest newest_age_s)) =
      some (history_json samples newest newest_age_s) := by
  have hj : Json.obj ((members samples newest newest_age_s).map fun m => (m.1, m.2.2)) =
      history_json samples newest newest_age_s := by
    simp only [members, history_json, entry_json, List.map_cons, List.map_nil, List.map_map]
    rfl
  obtain ⟨k, hk, hlen, h5⟩ := length_document samples newest newest_age_s
  rw [← hj]
  apply Json.parse_reads
  rw [hk, ← members_text]
  exact Json.reads_obj (members_read hlen newest newest_age_s) (by simp [members]; omega)

/-- The two clock values of the header count only where there is a sample. -/
theorem send_history_eq (httpd : Nat → EspErr) (h : History) (events_unix_time : Int → Int64) (now : Int) :
    let copy := h.history_copy HISTORY_SAMPLES
    ∃ newest newest_age_s, send_history httpd h events_unix_time now =
        send_samples httpd copy.1 newest newest_age_s ∧
      (copy.1 ≠ [] → newest = events_unix_time copy.2 ∧ newest_age_s = Int64.ofInt (now - copy.2)) := by
  refine ⟨_, _, rfl, fun hne => ?_⟩
  have hlen := mt List.length_eq_zero_iff.mp hne
  exact ⟨if_pos hlen, if_pos hlen⟩

/-- One statement for the whole response: what is sent, and what a reader of it gets. -/
theorem history_is_streamed_whole (samples : List (Int16 × Bool)) (newest newest_age_s : Int64) :
    ∃ body, send_samples (fun _ => .ESP_OK) samples newest newest_age_s = .ok (body ++ [[]]) ∧
      body.flatten = document samples newest newest_age_s ∧ (∀ c ∈ body, c ≠ [] ∧ c.length ≤ BUF_SIZE) ∧
      Json.parse (String.ofList body.flatten) = some (history_json samples newest newest_age_s) := by
  obtain ⟨body, hsend, htext, hchunks⟩ := sent_document samples newest newest_age_s
  refine ⟨body, hsend, htext, hchunks, ?_⟩
  rw [htext]
  exact parse_document samples newest newest_age_s

end FloorHeating.Streaming
