import FloorHeating.Lib.Decimal

/-!
# JSON

Values, a reader for the text (of RFC 8259), and how readings of the parts make
a reading of the whole. A number is the decimal in the text.
-/

open FloorHeating.Lib

namespace FloorHeating

inductive Json where
  | null
  | bool (b : Bool)
  | num (x : Rat)
  | str (s : String)
  | arr (items : List Json)
  | obj (fields : List (String × Json))

namespace Json

def item : Json → String → Option Json
  | .obj fields, key => (fields.find? fun m => m.1 = key).map Prod.snd
  | _, _ => none

/-! ## The reader -/

def isWs (c : Char) : Bool := c = ' ' || c = '\t' || c = '\n' || c = '\r'

def skipWs (cs : List Char) : List Char := cs.dropWhile isWs

def hexDigit (c : Char) : Option Nat :=
  if c.isDigit then some (c.toNat - 48)
  else if 'a' ≤ c ∧ c ≤ 'f' then some (c.toNat - 87)
  else if 'A' ≤ c ∧ c ≤ 'F' then some (c.toNat - 55)
  else none

def hex4 (a b c d : Char) : Option Nat := do
  let a ← hexDigit a
  let b ← hexDigit b
  let c ← hexDigit c
  let d ← hexDigit d
  return ((a * 16 + b) * 16 + c) * 16 + d

def escape (c : Char) : Option Char :=
  if c = '"' ∨ c = '\\' ∨ c = '/' then some c
  else if c = 'b' then some '\x08'
  else if c = 'f' then some '\x0c'
  else if c = 'n' then some '\n'
  else if c = 'r' then some '\r'
  else if c = 't' then some '\t'
  else none

/-- The characters of a string after its first quote. Half of a surrogate pair is not a character. -/
def string : List Char → Option (List Char × List Char)
  | [] => none
  | '"' :: cs => some ([], cs)
  | '\\' :: 'u' :: a :: b :: c :: d :: '\\' :: 'u' :: a' :: b' :: c' :: d' :: cs => do
    let hi ← hex4 a b c d
    if 0xD800 ≤ hi ∧ hi < 0xDC00 then
      let lo ← hex4 a' b' c' d'
      if 0xDC00 ≤ lo ∧ lo < 0xE000 then
        let (s, cs) ← string cs
        return (Char.ofNat (0x10000 + (hi - 0xD800) * 0x400 + (lo - 0xDC00)) :: s, cs)
      else none
    else if 0xDC00 ≤ hi ∧ hi < 0xE000 then none
    else
      let (s, cs) ← string ('\\' :: 'u' :: a' :: b' :: c' :: d' :: cs)
      return (Char.ofNat hi :: s, cs)
  | '\\' :: 'u' :: a :: b :: c :: d :: cs => do
    let n ← hex4 a b c d
    if 0xD800 ≤ n ∧ n < 0xE000 then none
    else
      let (s, cs) ← string cs
      return (Char.ofNat n :: s, cs)
  | '\\' :: c :: cs => do
    let c ← escape c
    let (s, cs) ← string cs
    return (c :: s, cs)
  | c :: cs =>
    if c.toNat < 0x20 then none
    else do
      let (s, cs) ← string cs
      return (c :: s, cs)

/-- The items of an array after its bracket; there is at least one. -/
def items (value : List Char → Option (Json × List Char)) : Nat → List Char → Option (List Json × List Char)
  | 0, _ => none
  | n + 1, cs => do
    let (v, cs) ← value cs
    match skipWs cs with
    | ',' :: cs =>
      let (vs, cs) ← items value n cs
      return (v :: vs, cs)
    | ']' :: cs => return ([v], cs)
    | _ => none

/-- The members of an object after its brace; there is at least one. -/
def members (value : List Char → Option (Json × List Char)) :
    Nat → List Char → Option (List (String × Json) × List Char)
  | 0, _ => none
  | n + 1, cs =>
    match skipWs cs with
    | '"' :: cs => do
      let (key, cs) ← string cs
      match skipWs cs with
      | ':' :: cs =>
        let (v, cs) ← value cs
        match skipWs cs with
        | ',' :: cs =>
          let (ms, cs) ← members value n cs
          return ((String.ofList key, v) :: ms, cs)
        | '}' :: cs => return ([(String.ofList key, v)], cs)
        | _ => none
      | _ => none
    | _ => none

def value : Nat → List Char → Option (Json × List Char)
  | 0, _ => none
  | fuel + 1, cs =>
    match skipWs cs with
    | 'n' :: 'u' :: 'l' :: 'l' :: cs => some (.null, cs)
    | 't' :: 'r' :: 'u' :: 'e' :: cs => some (.bool true, cs)
    | 'f' :: 'a' :: 'l' :: 's' :: 'e' :: cs => some (.bool false, cs)
    | '"' :: cs => (string cs).map fun (s, cs) => (.str (String.ofList s), cs)
    | '[' :: cs =>
      match skipWs cs with
      | ']' :: cs => some (.arr [], cs)
      | cs => (items (value fuel) fuel cs).map fun (vs, cs) => (.arr vs, cs)
    | '{' :: cs =>
      match skipWs cs with
      | '}' :: cs => some (.obj [], cs)
      | cs => (members (value fuel) fuel cs).map fun (ms, cs) => (.obj ms, cs)
    | cs => (number cs).map fun (x, cs) => (.num x, cs)

/-- Each nesting and each item uses up a character, so the text is fuel enough. -/
def parse (text : String) : Option Json :=
  match value (text.toList.length + 1) text.toList with
  | some (j, cs) => if skipWs cs = [] then some j else none
  | none => none

/-! ## Texts that read as values -/

/-- With this fuel `text` reads as `j`, whatever follows that is not more of a number. -/
structure Reads (fuel : Nat) (text : List Char) (j : Json) : Prop where
  start : ∃ c cs, text = c :: cs ∧ isWs c = false ∧ c ≠ ']'
  value : ∀ rest, Stops rest → value fuel (text ++ rest) = some (j, rest)

theorem skipWs_cons {c : Char} (hc : isWs c = false) (cs : List Char) : skipWs (c :: cs) = c :: cs :=
  List.dropWhile_cons_of_neg (by simp [hc])

theorem reads_null (fuel : Nat) : Reads (fuel + 1) ['n', 'u', 'l', 'l'] .null where
  start := ⟨'n', ['u', 'l', 'l'], rfl, by decide, by decide⟩
  value := fun _ _ => rfl

theorem toString_start (n : Int) :
    ∃ c cs, (toString n).toList = c :: cs ∧ (c = '-' ∨ c.isDigit = true) := by
  rw [toList_toString]
  split
  · exact ⟨'-', _, rfl, Or.inl rfl⟩
  · obtain ⟨c, cs, hd⟩ := List.exists_cons_of_ne_nil (@Nat.toDigits_ne_nil n.natAbs 10)
    refine ⟨c, cs, hd, Or.inr (toDigits_isDigit n.natAbs c ?_)⟩
    rw [hd]
    exact List.mem_cons_self

theorem reads_int (fuel : Nat) (n : Int) : Reads (fuel + 1) (toString n).toList (.num n) := by
  obtain ⟨c, cs, htext, hc⟩ := toString_start n
  have hws : isWs c = false := by
    rcases hc with rfl | hc
    · decide
    · unfold isWs
      by_contra hw
      simp only [Bool.not_eq_false, Bool.or_eq_true, decide_eq_true_eq] at hw
      rcases hw with ((rfl | rfl) | rfl) | rfl <;> exact absurd hc (by decide)
  -- No other value starts with a sign or a digit.
  have hne : ∀ d ∈ ['n', 't', 'f', '"', '[', '\x7b', ']'], c ≠ d := by
    rintro d hd rfl
    rcases hc with rfl | hc
    · exact absurd hd (by decide)
    · simp only [List.mem_cons, List.not_mem_nil, or_false] at hd
      rcases hd with rfl | rfl | rfl | rfl | rfl | rfl | rfl <;> exact absurd hc (by decide)
  refine ⟨⟨c, cs, htext, hws, hne ']' (by simp)⟩, fun rest hr => ?_⟩
  have hnum := number_int n hr
  rw [htext, List.cons_append] at hnum ⊢
  unfold value
  rw [skipWs_cons hws]
  split
  · rename_i he
    exact absurd (List.cons.inj he).1 (hne 'n' (by simp))
  · rename_i he
    exact absurd (List.cons.inj he).1 (hne 't' (by simp))
  · rename_i he
    exact absurd (List.cons.inj he).1 (hne 'f' (by simp))
  · rename_i he
    exact absurd (List.cons.inj he).1 (hne '"' (by simp))
  · rename_i he
    exact absurd (List.cons.inj he).1 (hne '[' (by simp))
  · rename_i he
    exact absurd (List.cons.inj he).1 (hne '\x7b' (by simp))
  · rw [hnum, Option.map_some]

/-! ### Strings -/

/-- Characters that stand for themselves in a string. -/
def Plain (s : List Char) : Prop := ∀ c ∈ s, 0x20 ≤ c.toNat ∧ c ≠ '"' ∧ c ≠ '\\'

theorem plain_of_all {s : List Char}
    (h : (s.all fun c => decide (0x20 ≤ c.toNat ∧ c ≠ '"' ∧ c ≠ '\\')) = true) : Plain s :=
  fun c hc => of_decide_eq_true (List.all_eq_true.mp h c hc)

theorem string_plain {s : List Char} (hs : Plain s) (rest : List Char) :
    string (s ++ '"' :: rest) = some (s, rest) := by
  induction s with
  | nil => rfl
  | cons c cs ih =>
    obtain ⟨hlow, hquote, hback⟩ := hs c List.mem_cons_self
    have ih := ih fun d hd => hs d (List.mem_cons_of_mem _ hd)
    rw [List.cons_append, string.eq_def]
    split
    · rename_i he
      cases he
    · rename_i he
      exact absurd (List.cons.inj he).1 hquote
    · rename_i he
      exact absurd (List.cons.inj he).1 hback
    · rename_i he
      exact absurd (List.cons.inj he).1 hback
    · rename_i he
      exact absurd (List.cons.inj he).1 hback
    · rename_i he
      obtain ⟨rfl, rfl⟩ := List.cons.inj he
      rw [if_neg (by omega), ih]
      rfl

theorem reads_str (fuel : Nat) {s : List Char} (hs : Plain s) :
    Reads (fuel + 1) ('"' :: (s ++ ['"'])) (.str (String.ofList s)) := by
  refine ⟨⟨'"', _, rfl, by decide, by decide⟩, fun rest _ => ?_⟩
  have hstr := string_plain hs rest
  unfold value
  rw [List.cons_append, skipWs_cons (by decide)]
  simp [hstr]

/-! ### Arrays and objects -/

theorem stops_punctuation {c : Char} (hc : c = ',' ∨ c = ']' ∨ c = '\x7d') (rest : List Char) :
    Stops (c :: rest) := by
  intro d hd
  obtain rfl := Option.some.inj hd
  rcases hc with rfl | rfl | rfl <;> decide

theorem items_read {fuel : Nat} {l : List (List Char × Json)} (hl : ∀ p ∈ l, Reads fuel p.1 p.2)
    (hne : l ≠ []) {n : Nat} (hn : l.length ≤ n) (rest : List Char) :
    items (value fuel) n ([','].intercalate (l.map Prod.fst) ++ ']' :: rest) = some (l.map Prod.snd, rest) := by
  induction l generalizing n with
  | nil => exact absurd rfl hne
  | cons p l ih =>
    obtain ⟨n, rfl⟩ : ∃ m, n = m + 1 := Nat.exists_eq_succ_of_ne_zero (by simp at hn; omega)
    have hp := (hl p List.mem_cons_self).value
    cases l with
    | nil =>
      have hv := hp (']' :: rest) (stops_punctuation (by simp) _)
      simp only [List.map_cons, List.map_nil, List.intercalate_singleton, items, hv]
      rfl
    | cons q l =>
      have hrest := ih (fun p hp => hl p (List.mem_cons_of_mem _ hp)) (by simp) (n := n)
        (by simpa using hn)
      have hv := hp (',' :: ([','].intercalate ((q :: l).map Prod.fst) ++ ']' :: rest))
        (stops_punctuation (by simp) _)
      rw [List.map_cons, List.map_cons, List.intercalate_cons_cons, ← List.map_cons, List.append_assoc,
        List.append_assoc, List.singleton_append, items, hv]
      simp only [Option.bind_eq_bind, Option.bind_some, skipWs_cons (show isWs ',' = false by decide), hrest]
      rfl

theorem reads_arr {fuel : Nat} {l : List (List Char × Json)} (hl : ∀ p ∈ l, Reads fuel p.1 p.2)
    (hn : l.length ≤ fuel) :
    Reads (fuel + 1) ('[' :: ([','].intercalate (l.map Prod.fst) ++ [']'])) (.arr (l.map Prod.snd)) := by
  refine ⟨⟨'[', _, rfl, by decide, by decide⟩, fun rest _ => ?_⟩
  rw [List.cons_append, List.append_assoc, List.singleton_append]
  cases l with
  | nil => rfl
  | cons p l =>
    obtain ⟨c, cs, hp, hws, hc⟩ := (hl p List.mem_cons_self).start
    have hread := items_read hl (by simp) hn rest
    obtain ⟨tail, htail⟩ : ∃ tail, [','].intercalate ((p :: l).map Prod.fst) ++ ']' :: rest = c :: tail := by
      rw [List.map_cons, hp, List.intercalate_cons_cons_left]
      exact ⟨_, rfl⟩
    rw [htail] at hread ⊢
    unfold value
    rw [skipWs_cons (by decide)]
    simp only [skipWs_cons hws]
    split
    · rename_i he
      exact absurd (List.cons.inj he).1 hc
    · rw [hread, Option.map_some]

def memberText (key : String) (text : List Char) : List Char := '"' :: (key.toList ++ '"' :: ':' :: text)

theorem members_read {fuel : Nat} {l : List (String × List Char × Json)}
    (hl : ∀ m ∈ l, Plain m.1.toList ∧ Reads fuel m.2.1 m.2.2) (hne : l ≠ []) {n : Nat} (hn : l.length ≤ n)
    (rest : List Char) :
    members (value fuel) n ([','].intercalate (l.map fun m => memberText m.1 m.2.1) ++ '\x7d' :: rest) =
      some (l.map fun m => (m.1, m.2.2), rest) := by
  induction l generalizing n with
  | nil => exact absurd rfl hne
  | cons m l ih =>
    obtain ⟨n, rfl⟩ : ∃ k, n = k + 1 := Nat.exists_eq_succ_of_ne_zero (by simp at hn; omega)
    obtain ⟨hkey, hm⟩ := hl m List.mem_cons_self
    cases l with
    | nil =>
      have hv := hm.value ('\x7d' :: rest) (stops_punctuation (by simp) _)
      have hk := string_plain hkey (':' :: (m.2.1 ++ '\x7d' :: rest))
      simp only [List.map_cons, List.map_nil, List.intercalate_singleton, memberText, List.cons_append,
        List.append_assoc, members, skipWs_cons (show isWs '"' = false by decide), hk, Option.bind_eq_bind,
        Option.bind_some, skipWs_cons (show isWs ':' = false by decide), hv,
        skipWs_cons (show isWs '\x7d' = false by decide), String.ofList_toList]
      rfl
    | cons q l =>
      have hrest := ih (fun m hm => hl m (List.mem_cons_of_mem _ hm)) (by simp) (n := n)
        (by simpa using hn)
      have hv := hm.value
        (',' :: ([','].intercalate ((q :: l).map fun m => memberText m.1 m.2.1) ++ '\x7d' :: rest))
        (stops_punctuation (by simp) _)
      have hk := string_plain hkey (':' :: (m.2.1 ++
        ',' :: ([','].intercalate ((q :: l).map fun m => memberText m.1 m.2.1) ++ '\x7d' :: rest)))
      have hsplit : [','].intercalate ((m :: q :: l).map fun m => memberText m.1 m.2.1) ++ '\x7d' :: rest =
          '"' :: (m.1.toList ++ '"' :: ':' :: (m.2.1 ++
            ',' :: ([','].intercalate ((q :: l).map fun m => memberText m.1 m.2.1) ++ '\x7d' :: rest))) := by
        simp [memberText]
      rw [hsplit, members, skipWs_cons (by decide)]
      simp only [hk, Option.bind_eq_bind, Option.bind_some, skipWs_cons (show isWs ':' = false by decide), hv,
        skipWs_cons (show isWs ',' = false by decide), hrest, String.ofList_toList]
      rfl

theorem reads_obj {fuel : Nat} {l : List (String × List Char × Json)}
    (hl : ∀ m ∈ l, Plain m.1.toList ∧ Reads fuel m.2.1 m.2.2) (hn : l.length ≤ fuel) :
    Reads (fuel + 1) ('\x7b' :: ([','].intercalate (l.map fun m => memberText m.1 m.2.1) ++ ['\x7d']))
      (.obj (l.map fun m => (m.1, m.2.2))) := by
  refine ⟨⟨'\x7b', _, rfl, by decide, by decide⟩, fun rest _ => ?_⟩
  rw [List.cons_append, List.append_assoc, List.singleton_append]
  cases l with
  | nil => rfl
  | cons m l =>
    have hread := members_read hl (by simp) hn rest
    rw [List.map_cons, memberText, List.intercalate_cons_cons_left, List.cons_append] at hread ⊢
    unfold value
    rw [skipWs_cons (by decide)]
    simp only [skipWs_cons (show isWs '"' = false by decide)]
    change Option.map _ (members (value fuel) fuel _) = _
    rw [hread, Option.map_some]

theorem parse_reads {text : List Char} {j : Json} (hr : Reads (text.length + 1) text j) :
    parse (String.ofList text) = some j := by
  have hv := hr.value [] (by intro c hc; cases hc)
  rw [List.append_nil] at hv
  unfold parse
  rw [String.toList_ofList, hv]
  rfl

end Json

end FloorHeating
